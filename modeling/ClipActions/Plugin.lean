import ClipActions.Action
import ClipActions.Text.Word

/-!
Plugins: actions that are described by what a file exports. A description is a table or an object;
several spellings and several places for it are known, and what is no description is refused.
-/
namespace ClipActions.Plugin

/-- What a file exports, or a part of it. -/
abbrev Candidate := Value Behaviour

/-- What a description holds under a name: an entry of a table, even null, or a member that is
not null. -/
def held? (c : Candidate) (name : Text) : Option Candidate :=
  match c with
  | .table entries => Value.atName? entries name
  | _ => if (c.member name).isNull then none else some (c.member name)

/-- What a description holds under the first of several names that it knows. -/
def field (c : Candidate) (names : List Text) : Candidate := (names.findSome? (held? c)).getD .null

/-- A text that is not empty. -/
def present? : Candidate → Option Text
  | .str t => if t.isEmpty then none else some t
  | _ => none

def texts : Candidate → List Text
  | .list items | .tuple items => items.filterMap fun
    | .str t => some t
    | _ => none
  | _ => []

def text? : Candidate → Option Text
  | .str t => some t
  | _ => none

/-- The text of a result; null is the empty text. -/
def resultText (result : Data) : Text := if result.isNull then [] else result.display

/-- The work of a plugin as the work of an action: its result becomes a text. -/
def runner (b : Behaviour) (task : Task) : Program Json :=
  (b task).map fun result => .str (resultText result)

/-- The action that a description describes: it must have an identifier and code to run. -/
def action? (c : Candidate) : Option Action := do
  let id ← present? (field c ["id"])
  let .function b := field c ["run"] | none
  return {
    id
    aliases := texts (field c ["aliases"])
    description := (present? (field c ["description"])).getD ("Plugin action: " ++ id)
    title := (present? (field c ["output_title", "outputTitle"])).getD id
    progress := text? (field c ["progress_message", "progressMessage"])
    run := runner b }

/-- A table of metadata with code to run beside it, as one description. -/
def joined? (metadata run : Candidate) : Option Candidate :=
  match metadata with
  | .table entries => if run.isNull then none else some (.table (Value.putEntry (.str "run") run entries))
  | _ => none

/-- The action that a file exports: as `default`, as `action`, as metadata and code, or in parts. -/
def exported? (attributes : List (Text × Candidate)) : Option Action :=
  let file : Candidate := .object attributes
  action? (file.member "default") <|> action? (file.member "action") <|>
    (joined? (file.member "metadata") (file.member "run")).bind action? <|> action? file

/-- The name under which a file is loaded; the index keeps the names of two files apart. -/
def moduleName (index : Nat) (file : Path) : Text :=
  "cbai_plugin_" ++ Text.ofNat index ++ "_" ++
    file.stem.map fun s => if s.isWord then s else .char '_'

end ClipActions.Plugin
