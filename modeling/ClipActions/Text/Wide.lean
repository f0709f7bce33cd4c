import ClipActions.Text.Utf8

/-! Texts in units of two or four bytes. Surrogates that stand alone pass. -/
namespace ClipActions

inductive ByteOrder where
  | big
  | little
  deriving DecidableEq, Repr

namespace Utf16

/-- The units of bytes in pairs; none if one byte is left over. -/
def units? (order : ByteOrder) : Bytes → Option (List Nat)
  | [] => some []
  | [_] => none
  | a :: b :: rest =>
    let unit := match order with
      | .big => a.toNat * 256 + b.toNat
      | .little => b.toNat * 256 + a.toNat
    (unit :: ·) <$> units? order rest

/-- A high unit and a low unit after it are one code point; every other unit is one by itself. -/
def ofUnits : List Nat → Text
  | [] => []
  | [u] => [.ofCode u]
  | u :: v :: rest =>
    if 0xD800 ≤ u ∧ u < 0xDC00 ∧ 0xDC00 ≤ v ∧ v < 0xE000 then
      .ofCode (0x10000 + (u - 0xD800) * 1024 + (v - 0xDC00)) :: ofUnits rest
    else .ofCode u :: ofUnits (v :: rest)

def decode? (order : ByteOrder) (bytes : Bytes) : Option Text := ofUnits <$> units? order bytes

end Utf16

namespace Utf32

def decode? (order : ByteOrder) : Bytes → Option Text
  | [] => some []
  | a :: b :: c :: d :: rest =>
    let code := match order with
      | .big => ((a.toNat * 256 + b.toNat) * 256 + c.toNat) * 256 + d.toNat
      | .little => ((d.toNat * 256 + c.toNat) * 256 + b.toNat) * 256 + a.toNat
    if code < 0x110000 then (.ofCode code :: ·) <$> decode? order rest else none
  | _ => none

end Utf32
end ClipActions
