import ClipActions.Radix

/-! The addresses that may stand between the brackets of a URL. -/
namespace ClipActions.Url

def decimal? (t : Text) : Option Nat :=
  if t.isEmpty then none else (t.mapM Symbol.digit?).map (Radix.value 10)

/-- A number from 0 to 255 without superfluous zeros. -/
def isOctet (t : Text) : Bool :=
  t.length ≤ 3 && (t = "0" || t.head? ≠ some (.char '0')) && (decimal? t).any (· ≤ 255)

def isV4 (t : Text) : Bool :=
  let octets := t.splitOn (.char '.')
  octets.length == 4 && octets.all isOctet

/-- One to four hexadecimal digits. -/
def isGroup (t : Text) : Bool :=
  !t.isEmpty && t.length ≤ 4 && t.all fun s => s.hexDigit?.isSome

/-- The groups of an address; four numbers at its end count as two groups. -/
def groups? (t : Text) : Option (List Text) :=
  let parts := t.splitOn (.char ':')
  match parts.getLast? with
  | none => none
  | some last =>
    if parts.length < 3 then none
    else if last.contains (.char '.') then
      let zero : Text := "0"
      if isV4 last then some (parts.dropLast ++ [zero, zero]) else none
    else some parts

/--
Eight groups, or fewer with one gap. A gap at an end is an empty group there and one beside it.
-/
def areGroups (groups : List Text) : Bool :=
  let inner := groups.tail.dropLast
  let present := groups.filter (· ≠ [])
  match inner.count [] with
  | 0 => groups.length == 8 && groups.all isGroup
  | 1 =>
    (groups.head? ≠ some [] || inner.head? = some []) &&
      (groups.getLast? ≠ some [] || inner.getLast? = some []) &&
      present.length ≤ 7 && present.all isGroup
  | _ => false

/-- An address of the sixth version, with a zone or without. -/
def isV6 (t : Text) : Bool :=
  let (address, zone) := t.cut (.char '%')
  let zoneOk := match zone with
    | none => true
    | some zone => !zone.isEmpty && !zone.contains (.char '%')
  zoneOk && (groups? address).any areGroups

/-- An address of a later version: `v`, hexadecimal digits, a point and some text. -/
def isLater (t : Text) : Bool :=
  match t with
  | .char 'v' :: rest =>
    let (version, text) := Text.cut (.char '.') rest
    !version.isEmpty && version.all (fun s => s.hexDigit?.isSome) && text.any (!·.isEmpty)
  | _ => false

/-- What may stand between brackets. -/
def isBracketed (t : Text) : Bool := isLater t || isV6 t

end ClipActions.Url
