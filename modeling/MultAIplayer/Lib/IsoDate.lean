import Mathlib.Data.Int.Notation
import Mathlib.Data.List.Basic
import Mathlib.Algebra.GroupWithZero.Nat
import Mathlib.Algebra.Ring.Nat
import Mathlib.Algebra.Ring.Int.Defs

/-!
# ISO 8601 timestamps in UTC

Milliseconds since the Unix epoch from a text of the form `YYYY-MM-DDTHH:mm[:ss[.fff]]Z`, and the
text with three fractional digits that `Date.prototype.toISOString` writes. A text of any other
form, or with a date that the calendar does not have, is not a timestamp here.

The calendar is the proleptic Gregorian one and the years are those of four digits.
-/

namespace IsoDate

/-! ### The calendar -/

def isLeapYear (y : ℕ) : Bool := y % 4 = 0 && (y % 100 ≠ 0 || y % 400 = 0)

def daysInMonth (y m : ℕ) : ℕ :=
  [31, if isLeapYear y then 29 else 28, 31, 30, 31, 30, 31, 31, 30, 31, 30, 31].getD (m - 1) 0

/-- Days from 0000-01-01 to the first day of a year. -/
def daysBeforeYear (y : ℕ) : ℕ := 365 * y + (y + 3) / 4 - (y + 99) / 100 + (y + 399) / 400

/-- Days from the first day of a year to the first day of a month. -/
def daysBeforeMonth (y m : ℕ) : ℕ := ((List.range (m - 1)).map fun i ↦ daysInMonth y (i + 1)).sum

/-- Days from 0000-01-01 to 1970-01-01. -/
def epochDays : ℕ := daysBeforeYear 1970

def daysFromEpoch (y m d : ℕ) : ℤ :=
  (daysBeforeYear y + daysBeforeMonth y m + (d - 1) : ℕ) - (epochDays : ℤ)

/-! ### Reading -/

/-- The number that a list of decimal digits writes. -/
def digits? (cs : List Char) : Option ℕ :=
  if cs.all Char.isDigit then some (cs.foldl (fun n c ↦ 10 * n + (c.toNat - 48)) 0) else none

/-- The first three fractional digits, padded with zeros on the right. -/
def milliseconds? (cs : List Char) : Option ℕ :=
  if cs = [] then none else if cs.all Char.isDigit then digits? ((cs ++ ['0', '0']).take 3) else none

/-- Seconds and milliseconds after `HH:mm`. -/
def seconds? : List Char → Option (ℕ × ℕ)
  | ['Z'] => some (0, 0)
  | [':', a, b, 'Z'] => (digits? [a, b]).map (·, 0)
  | ':' :: a :: b :: '.' :: rest =>
    if rest.getLast? = some 'Z' then
      (digits? [a, b]).bind fun s ↦ (milliseconds? rest.dropLast).map (s, ·)
    else none
  | _ => none

/-- Milliseconds since the epoch of a date and a time of day, when both exist. -/
def instant? (y m d hour minute second ms : ℕ) : Option ℤ :=
  if 1 ≤ m ∧ m ≤ 12 ∧ 1 ≤ d ∧ d ≤ daysInMonth y m ∧ hour ≤ 23 ∧ minute ≤ 59 ∧ second ≤ 59 then
    some (((daysFromEpoch y m d * 24 + hour) * 60 + minute) * 60000 + (second * 1000 + ms : ℕ))
  else none

/-- The timestamp that a text denotes. -/
def parse (s : String) : Option ℤ :=
  match s.toList with
  | y₁ :: y₂ :: y₃ :: y₄ :: '-' :: m₁ :: m₂ :: '-' :: d₁ :: d₂ :: 'T' :: h₁ :: h₂ :: ':' :: n₁ ::
      n₂ :: rest =>
    (digits? [y₁, y₂, y₃, y₄]).bind fun y ↦
      (digits? [m₁, m₂]).bind fun m ↦
        (digits? [d₁, d₂]).bind fun d ↦
          (digits? [h₁, h₂]).bind fun hour ↦
            (digits? [n₁, n₂]).bind fun minute ↦
              (seconds? rest).bind fun s ↦ instant? y m d hour minute s.1 s.2
  | _ => none

/-! ### Writing -/

/-- A number in decimal, padded with zeros on the left. -/
def padded (width n : ℕ) : List Char :=
  let cs := Nat.toDigits 10 n
  List.replicate (width - cs.length) '0' ++ cs

/-- Year and day of the year of a day counted from 0000-01-01. -/
def yearOf (day : ℕ) : ℕ × ℕ :=
  let guess := day / 366
  let year := ((List.range 30).map (guess + ·)).reverse.find? (daysBeforeYear · ≤ day)
  let y := year.getD guess
  (y, day - daysBeforeYear y)

/-- Month and day of the month of a day of a year. -/
def monthOf (y dayOfYear : ℕ) : ℕ × ℕ :=
  let month := ((List.range 12).map (· + 1)).reverse.find? (daysBeforeMonth y · ≤ dayOfYear)
  let m := month.getD 1
  (m, dayOfYear - daysBeforeMonth y m + 1)

/-- `Date.prototype.toISOString`. -/
def toISOString (t : ℤ) : String :=
  let day := (t.fdiv 86400000 + epochDays).toNat
  let time := (t.fmod 86400000).toNat
  let y := yearOf day
  let m := monthOf y.1 y.2
  String.ofList (padded 4 y.1 ++ '-' :: padded 2 m.1 ++ '-' :: padded 2 m.2 ++
    'T' :: padded 2 (time / 3600000) ++ ':' :: padded 2 (time / 60000 % 60) ++
    ':' :: padded 2 (time / 1000 % 60) ++ '.' :: padded 3 (time % 1000) ++ ['Z'])

example : parse "2026-02-03T04:05:06.789Z" = some 1770091506789 := by decide

example : toISOString 1770091506789 = "2026-02-03T04:05:06.789Z" := by decide

example : parse "2026-02-29T00:00Z" = none := by decide

end IsoDate
