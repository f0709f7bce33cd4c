import ClipActions.Failure

/-!
The names of files as the system takes them: bytes without a zero. A lone surrogate from U+DC80 to
U+DCFF stands for one byte that is no part of a character.
-/
namespace ClipActions.Disk.Name

def isByte (s : Symbol) : Bool := s.isLone && 0xDC80 ≤ s.code && s.code ≤ 0xDCFF

def size (t : Text) : Nat :=
  t.foldl (fun n s => n + if s.isLone then 1 else (Utf8.encodeCode s.code).length) 0

def fault? (t : Text) : Option Failure :=
  match Utf8.obstacleWhere? (fun s => s.isLone && !isByte s) t with
  | some o => some (.unencodable o)
  | none => if t.contains (.char '\x00') then some .nullByte else none

def maxPart : Nat := 255

def maxPath : Nat := 4095

end ClipActions.Disk.Name
