import ClipActions.Json.Reader
import ClipActions.Text.Wide

/-! JSON from bytes, whose encoding shows in a byte-order mark or in where the zero bytes stand. -/
namespace ClipActions.Json

def decodeBytes? (bytes : Bytes) : Option Text :=
  match bytes with
  | 0 :: 0 :: 0xFE :: 0xFF :: rest => Utf32.decode? .big rest
  | 0xFF :: 0xFE :: 0 :: 0 :: rest => Utf32.decode? .little rest
  | 0xFE :: 0xFF :: rest => Utf16.decode? .big rest
  | 0xFF :: 0xFE :: rest => Utf16.decode? .little rest
  | 0xEF :: 0xBB :: 0xBF :: rest => Utf8.decodeStrict? rest
  | a :: b :: c :: d :: _ =>
    if a = 0 then if b = 0 then Utf32.decode? .big bytes else Utf16.decode? .big bytes
    else if b = 0 then
      if c = 0 ∧ d = 0 then Utf32.decode? .little bytes else Utf16.decode? .little bytes
    else Utf8.decodeStrict? bytes
  | [a, b] =>
    if a = 0 then Utf16.decode? .big bytes
    else if b = 0 then Utf16.decode? .little bytes
    else Utf8.decodeStrict? bytes
  | _ => Utf8.decodeStrict? bytes

variable [Runtime]

/-- The document that bytes hold, if they hold one. Only containers that are nested too deeply stop
the reading. -/
def readBytes (bytes : Bytes) : Except Container (Option Json) :=
  match decodeBytes? bytes with
  | none => .ok none
  | some text =>
    match readStep text with
    | .ok j => .ok (some j)
    | .error stop =>
      match stop.problem.tooDeep? with
      | some c => .error c
      | none => .ok none

end ClipActions.Json
