import ClipActions.Instant

/-! Identifiers of runs: the milliseconds of the clock in base 36, a dash and six drawn digits. -/
namespace ClipActions.RunId

def suffixLength : Nat := 6

/-- The digit that a drawn number picks. -/
def pick (n : Nat) : Symbol := Radix.digit (n % 36)

/-- The identifier of a run at an instant from 1970 on, with the numbers drawn for it. -/
def make (now : Instant) (draws : List Nat) : Text :=
  Radix.write 36 now.millis.toNat ++ "-" ++ draws.map pick

end ClipActions.RunId
