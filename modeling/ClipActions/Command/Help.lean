import ClipActions.Command.Grammar

/-! The help of a program: how it is used, and what its options and places are. -/
namespace ClipActions.Command

/-- A line of help: what is described, how far it is indented, and what is said about it. -/
structure Row where
  indent : Nat
  head : Text
  about : Text
  deriving DecidableEq, Repr

structure Section where
  title : Text
  rows : List Row

structure Help where
  usage : Text
  description : Text := []
  sections : List Section

namespace Help

def blanks (n : Nat) : Text := List.replicate n (.char ' ')

/-- The column beyond which no description begins. -/
def maxColumn : Nat := 24

def indent : Nat := 2

/-- The column in which the descriptions begin: two blanks after the longest head. -/
def column (sections : List Section) : Nat :=
  let widths := (sections.flatMap (·.rows)).map fun r => r.head.length + indent
  min (widths.foldl max 0 + 2) maxColumn

/-- A row; a description that its head leaves no place for goes on a line of its own. -/
def Row.text (column : Nat) (r : Row) : Text :=
  let lead := blanks r.indent ++ r.head
  if r.about.isEmpty then lead ++ "\n"
  else if lead.length + 2 ≤ column then
    lead ++ blanks (column - lead.length) ++ r.about ++ "\n"
  else lead ++ "\n" ++ blanks column ++ r.about ++ "\n"

def Section.text (column : Nat) (s : Section) : Text :=
  s.title ++ ":\n" ++ (s.rows.map (Row.text column)).flatten

/-- The text of a help: its parts with blank lines between them. -/
def text (h : Help) : Text :=
  let sections := h.sections.filter (!·.rows.isEmpty)
  let intro : List Text := if h.description.isEmpty then [] else [h.description ++ "\n"]
  let parts : List Text := ("usage: " ++ h.usage ++ "\n") ::
    intro ++ sections.map (Section.text (column sections))
  Text.joinWith "\n" parts

end Help

namespace Flag

/-- A spelling of an option with the name of its value. -/
def spelled (f : Flag) (name : Text) : Text :=
  if f.takesValue then name ++ .char ' ' :: f.value else name

def usage (f : Flag) : Text := .char '[' :: f.spelled (f.names.headD []) ++ [.char ']']

def row (f : Flag) : Row := ⟨Help.indent, Text.joinWith ", " (f.names.map f.spelled), f.about⟩

end Flag

namespace Slot

def usage (s : Slot) : Text :=
  match s.place with
  | .one => s.name
  | .many => .char '[' :: s.name ++ " ...]"
  | .command => s.name ++ " ..."

def row (s : Slot) : Row := ⟨Help.indent, s.name, s.about⟩

end Slot

namespace Grammar

def usage (g : Grammar) : Text :=
  Text.joinWith " " (g.program :: g.flags.map Flag.usage ++ g.slots.map Slot.usage)

/-- The help of a grammar; further rows stand below those of its places. -/
def help (g : Grammar) (description : Text := []) (further : List Row := []) : Help where
  usage := g.usage
  description := description
  sections := [
    ⟨"positional arguments", g.slots.map Slot.row ++ further⟩,
    ⟨"options", g.flags.map Flag.row⟩]

end Grammar
end ClipActions.Command
