import ClipActions.Plugin

/-!
Recipes: the code of a plugin as data. A plugin's code may be any behaviour; these are the ones that
a document can describe, for a host that is set up from one.
-/
namespace ClipActions.Plugin

inductive Recipe where
  /-- The text of the task. -/
  | text
  /-- The arguments of the task with commas between them. -/
  | args
  /-- How long the text is. -/
  | length
  /-- The text from its end to its beginning. -/
  | reverse
  | constant (v : Data)
  /-- A setting of the configuration. -/
  | setting (block key : Json)
  | raise (h : Halt)
  /-- A call to the model on the text, by name and with further arguments. -/
  | ask (name : Text) (arguments : List Json)

namespace Recipe

def reversed : Json → Checked Data
  | .str t => .ok (.str t.reverse)
  | .arr items => .ok (.ofJson (.arr items.reverse))
  | .obj _ => .error (.unhashable "slice")
  | j => .error (.notSubscriptable j.typeName)

/-- A setting in a block of a configuration; null if there is none. -/
def settingIn (config : Json) (block key : Json) : Data :=
  let field (j name : Json) : Json :=
    match j, name with
    | .obj fields, .str t => (Json.Fields.find? fields t).getD .null
    | _, _ => .null
  .ofJson (field (field config block) key)

def behaviour : Recipe → Behaviour
  | text, task => .done (.ofJson task.text)
  | args, task => .ofChecked (Value.str <$> Json.join ", " task.args)
  | length, task => .ofChecked ((fun n : Nat => .int n) <$> task.text.size)
  | reverse, task => .ofChecked (reversed task.text)
  | constant v, _ => .done v
  | setting block key, task => .done (settingIn task.config block key)
  | raise h, _ => .stop h
  | ask name arguments, task => .askOnce (.named name (task.text :: arguments)) .ofJson

end Recipe
end ClipActions.Plugin
