import ClipActions.Text.Basic

/-! White space of texts. -/
namespace ClipActions

/-- White space: the Unicode class and the four information separators. -/
def Symbol.blankRanges : List (Nat × Nat) := [
  (0x9, 0xD), (0x1C, 0x20), (0x85, 0x85), (0xA0, 0xA0), (0x1680, 0x1680), (0x2000, 0x200A), (0x2028, 0x2029),
  (0x202F, 0x202F), (0x205F, 0x205F), (0x3000, 0x3000)]

/-- White space in the sense of trimming and of blank lines. U+200B and U+FEFF are none. -/
def Symbol.isBlank (s : Symbol) : Bool := s.within Symbol.blankRanges

namespace Text

/-- Without white space at either end. -/
def trim (t : Text) : Text := t.trimBy Symbol.isBlank

/-- Without white space at the end. -/
def trimEnd (t : Text) : Text := t.dropTail Symbol.isBlank

end Text
end ClipActions
