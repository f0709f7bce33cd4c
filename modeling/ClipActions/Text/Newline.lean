import ClipActions.Text.Basic

/-! Line ends of text files. -/
namespace ClipActions.Text

/-- A carriage return, alone or before a line feed, becomes one line feed. -/
def unifyNewlines : Text → Text
  | [] => []
  | .char '\r' :: .char '\n' :: rest => .char '\n' :: unifyNewlines rest
  | c :: rest => (if c = .char '\r' then .char '\n' else c) :: unifyNewlines rest

/-- The pieces of a text between its line feeds; a text without one is a single piece. -/
def lines (t : Text) : List Text := t.splitOn (.char '\n')

end ClipActions.Text
