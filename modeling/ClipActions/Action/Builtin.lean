import ClipActions.Action

/-! The built-in actions. Each asks the model for one operation and passes its answer on. -/
namespace ClipActions.Action

def defaultLanguage : Text := "English"

/-- The language that an operation is told: the first argument, if the operation is `translate`. -/
def language (operation : Operation) (args : List Json) : Json :=
  match operation with
  | .translate => args.headD (.str defaultLanguage)
  | _ => .str []

def perform (operation : Operation) (task : Task) : Program Json :=
  .askOnce (.known (.apply operation task.text (language operation task.args))) (·)

def summary : Action where
  id := "summary"
  aliases := ["summarize", "sum"]
  description := "Summarize clipboard content"
  title := "Summary"
  progress := some "Summarizing clipboard content..."
  run := perform .summarize

def explain : Action where
  id := "explain"
  description := "Explain clipboard content (good for code)"
  title := "Explanation"
  progress := some "Explaining clipboard content..."
  run := perform .explain

def translate : Action where
  id := "translate"
  description := "Translate clipboard to target language"
  title := "Translation"
  progress := some "Translating clipboard content..."
  run := perform .translate

def improve : Action where
  id := "improve"
  description := "Improve writing in clipboard"
  title := "Improved"
  progress := some "Improving writing..."
  run := perform .improve

def extract : Action where
  id := "extract"
  description := "Extract structured data from clipboard"
  title := "Extracted Data"
  progress := some "Extracting structured data..."
  run := perform .extract

def tldr : Action where
  id := "tldr"
  description := "Get a very brief summary (1-2 sentences)"
  title := "TL;DR"
  run := perform .tldr

def classify : Action where
  id := "classify"
  description := "Classify clipboard content by type"
  title := "Classification"
  progress := some "Classifying clipboard content..."
  run := perform .classify

def builtins : List Action := [summary, explain, translate, improve, extract, tldr, classify]

end ClipActions.Action
