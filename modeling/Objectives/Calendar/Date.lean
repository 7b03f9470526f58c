/- # Calendar dates

Dates of the Gregorian calendar, extended to all years, and their text `YYYY-MM-DD`.

Main definitions:

* `Date` — a year, a month and a day that exist;
* `Date.ofText?`, `Date.text` — reading and writing;
* `Date.dayNumber`, `Date.ofDayNumber` — the days since 1 January 1970;
* `Scan` — the small readers that dates and instants are made of.

Main results:

* `Date.make?_eq_some_iff` — which parts make a date;
* `Date.le_total` — any two dates can be compared.
-/

import Objectives.Text.Blank

set_option relaxedAutoImplicit false
set_option autoImplicit false

namespace Objectives

/-! ### Readers -/

namespace Scan

/-- Leaves out leading blanks. -/
def blanks (text : List Char) : List Char := Text.trimLeft text

/-- Reads one given character. -/
def literal (c : Char) : List Char → Option (List Char)
  | d :: rest => if d = c then some rest else none
  | [] => none

/-- The number that decimal digits spell. -/
def value (digits : List Char) : Nat :=
  digits.foldl (fun n d => n * 10 + (d.toNat - '0'.toNat)) 0

/-- Reads a number of at least `low` and at most `high` digits. -/
def digits (low high : Nat) (text : List Char) : Option (Nat × List Char) :=
  let found := (text.take high).takeWhile Char.isDigit
  if found.length < low then none else some (value found, text.drop found.length)

/-- Reads a number of one or two digits after leading blanks. -/
def twoDigits (text : List Char) : Option (Nat × List Char) := digits 1 2 (blanks text)

/-- Reads a year: up to four digits, or any number of them after a sign. -/
def year (text : List Char) : Option (Int × List Char) :=
  match blanks text with
  | '-' :: rest => (digits 1 rest.length rest).map fun (n, left) => (-(n : Int), left)
  | '+' :: rest => (digits 1 rest.length rest).map fun (n, left) => ((n : Int), left)
  | other => (digits 1 4 other).map fun (n, left) => ((n : Int), left)

end Scan

/-! ### Dates -/

/-- A day of the Gregorian calendar. -/
structure Date where
  year : Int
  month : Nat
  day : Nat
  deriving DecidableEq, Repr

namespace Date

/-- Whether February has 29 days. -/
def isLeap (year : Int) : Bool :=
  year % 4 == 0 && (year % 100 != 0 || year % 400 == 0)

/-- The number of days of a month, and 0 for a month that does not exist. -/
def daysIn (year : Int) : Nat → Nat
  | 2 => if isLeap year then 29 else 28
  | 4 | 6 | 9 | 11 => 30
  | 1 | 3 | 5 | 7 | 8 | 10 | 12 => 31
  | _ => 0

/-- The first year whose days are dates. -/
def minYear : Int := -262143

/-- The last year whose days are dates. -/
def maxYear : Int := 262142

/-- Whether the days of a year are dates. -/
def hasYear (year : Int) : Bool := minYear ≤ year && year ≤ maxYear

/-- The date with these parts, if there is such a day. -/
def make? (year : Int) (month day : Nat) : Option Date :=
  if hasYear year ∧ 1 ≤ day ∧ day ≤ daysIn year month then some ⟨year, month, day⟩
  else none

/-- A date is made of its parts exactly if they name a day of a year that is kept. -/
theorem make?_eq_some_iff {year : Int} {month day : Nat} {d : Date} :
    make? year month day = some d ↔
      hasYear year = true ∧ 1 ≤ day ∧ day ≤ daysIn year month ∧ d = ⟨year, month, day⟩ := by
  unfold make?
  split
  · rename_i h
    simp [h, eq_comm]
  · rename_i h
    simp only [reduceCtorEq, false_iff]
    rintro ⟨hy, hl, hu, -⟩
    exact h ⟨hy, hl, hu⟩

/-- A key that grows with the date. -/
def key (d : Date) : Int := (d.year * 16 + d.month) * 32 + d.day

/-- The first date is not after the second. -/
def le (a b : Date) : Bool := a.key ≤ b.key

/-- Any two dates can be compared. -/
theorem le_total (a b : Date) : le a b = true ∨ le b a = true := by
  simp only [le, decide_eq_true_eq]
  omega

/-- Reads year, month and day with hyphens between them. -/
def scan (text : List Char) : Option (Date × List Char) := do
  let (year, rest) ← Scan.year text
  let rest ← Scan.literal '-' (Scan.blanks rest)
  let (month, rest) ← Scan.twoDigits rest
  let rest ← Scan.literal '-' (Scan.blanks rest)
  let (day, rest) ← Scan.twoDigits rest
  let date ← make? year month day
  return (date, rest)

/-- The date that a text spells. -/
def ofText? (text : String) : Option Date := do
  let (date, rest) ← scan text.toList
  if (Scan.blanks rest).isEmpty then some date else none

/-- A number with leading zeros up to a width. -/
def padded (width n : Nat) : String :=
  let digits := toString n
  String.ofList (List.replicate (width - digits.length) '0') ++ digits

/-- The text of a year: four digits, with a sign in front outside 0 to 9999. -/
def yearText (year : Int) : String :=
  if 0 ≤ year ∧ year ≤ 9999 then padded 4 year.natAbs
  else (if year < 0 then "-" else "+") ++ padded 4 year.natAbs

/-- The text of a date. -/
def text (d : Date) : String :=
  s!"{yearText d.year}-{padded 2 d.month}-{padded 2 d.day}"

/-- The days from 1 January 1970 to a date.  Years are counted from March, so that a leap day is
the last day of its year, and grouped into cycles of 400 years. -/
def dayNumber (d : Date) : Int :=
  let year := if d.month ≤ 2 then d.year - 1 else d.year
  let cycle := year.fdiv 400
  let yearOfCycle := year - cycle * 400
  let month : Int := (d.month + 9) % 12
  let dayOfYear := (153 * month + 2) / 5 + d.day - 1
  let dayOfCycle := yearOfCycle * 365 + yearOfCycle / 4 - yearOfCycle / 100 + dayOfYear
  cycle * 146097 + dayOfCycle - 719468

/-- The date that many days after 1 January 1970. -/
def ofDayNumber (days : Int) : Date :=
  let shifted := days + 719468
  let cycle := shifted.fdiv 146097
  let dayOfCycle := shifted - cycle * 146097
  let yearOfCycle :=
    (dayOfCycle - dayOfCycle / 1460 + dayOfCycle / 36524 - dayOfCycle / 146096) / 365
  let dayOfYear := dayOfCycle - (365 * yearOfCycle + yearOfCycle / 4 - yearOfCycle / 100)
  let shiftedMonth := (5 * dayOfYear + 2) / 153
  let day := dayOfYear - (153 * shiftedMonth + 2) / 5 + 1
  let month := if shiftedMonth < 10 then shiftedMonth + 3 else shiftedMonth - 9
  let year := yearOfCycle + cycle * 400
  ⟨if month ≤ 2 then year + 1 else year, month.toNat, day.toNat⟩

end Date

end Objectives
