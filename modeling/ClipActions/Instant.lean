import ClipActions.Radix

/-!
Points in time, in microseconds since the beginning of 1970 or, if negative, before it, and how they
are written: with milliseconds and a `Z` in records, with microseconds and an offset in log events.
-/
namespace ClipActions

structure Instant where
  micros : Int
  deriving DecidableEq, Repr, Inhabited

structure Date where
  year : Nat
  month : Nat
  day : Nat
  deriving DecidableEq, Repr

namespace Date

/-- The days of the years before a year that begins in March, counted from the year 0. -/
def daysBeforeMarch (year : Nat) : Nat := 365 * year + year / 4 - year / 100 + year / 400

/-- The days of a year that begins in March before its month of the given number. -/
def daysBeforeMonth (month : Nat) : Nat := (153 * month + 2) / 5

/-- The days from the first of March of the year 0 to the first of January of 1970. -/
def epoch : Nat := 719468

/-- The date that lies a number of days after the first of January of 1970. No date is earlier than
the first of March of the year 0. -/
def ofDays (days : Int) : Date :=
  let z := (days + epoch).toNat
  let inEra := z % 146097
  let century := min (inEra / 36524) 3
  let inCentury := inEra - century * 36524
  let inCycle := inCentury % 1461
  let inFour := min (inCycle / 365) 3
  let inYear := inCycle - inFour * 365
  let year := z / 146097 * 400 + century * 100 + inCentury / 1461 * 4 + inFour
  let month := (5 * inYear + 2) / 153
  let day := inYear - daysBeforeMonth month + 1
  if month < 10 then ⟨year, month + 3, day⟩ else ⟨year + 1, month - 9, day⟩

end Date

namespace Instant

/-- Whole milliseconds since the beginning of 1970, rounded down. -/
def millis (i : Instant) : Int := i.micros.fdiv 1000

def ofDay (i : Instant) : Nat := (i.micros.fmod 86400000000).toNat

/-- A number with at least a given count of digits. -/
def padded (width n : Nat) : Text := (Text.ofNat n).padZeros width

def toSecond (i : Instant) : Text :=
  let d := Date.ofDays (i.micros.fdiv 86400000000)
  let s := i.ofDay / 1000000
  padded 4 d.year ++ "-" ++ padded 2 d.month ++ "-" ++ padded 2 d.day ++ "T" ++
    padded 2 (s / 3600) ++ ":" ++ padded 2 (s / 60 % 60) ++ ":" ++ padded 2 (s % 60)

/-- With three digits after the second, rounded down, and `Z`. -/
def record (i : Instant) : Text := i.toSecond ++ "." ++ padded 3 (i.ofDay / 1000 % 1000) ++ "Z"

/-- With six digits after the second, or none if they are zeros, and the offset of the local time, which
is taken to be UTC. -/
def event (i : Instant) : Text :=
  let rest := i.ofDay % 1000000
  let fraction : Text := if rest = 0 then [] else "." ++ padded 6 rest
  i.toSecond ++ fraction ++ "+00:00"

end Instant
end ClipActions
