/- # Instants

A point in time, counted in seconds and nanoseconds, and its text in universal time.

Main definitions:

* `Instant` — a point in time;
* `Instant.ofText?` — reading a date, a time and an offset from universal time; blanks may stand
  between the parts and at both ends;
* `Instant.text` — writing it in universal time, with as many fraction digits as are needed out of
  0, 3, 6 and 9.
-/

import Objectives.Calendar.Date

set_option relaxedAutoImplicit false
set_option autoImplicit false

namespace Objectives

/-- A point in time.  A leap second is the second before it with a thousand million nanoseconds
more. -/
structure Instant where
  /-- Whole seconds since the start of 1970. -/
  seconds : Int
  nanoseconds : Nat
  deriving DecidableEq, Repr

namespace Instant

/-- The order in time. -/
def compare (a b : Instant) : Ordering :=
  (Ord.compare a.seconds b.seconds).then (Ord.compare a.nanoseconds b.nanoseconds)

/-! ### Reading -/

/-- Reads a fraction of a second, if there is one, as nanoseconds; digits past the ninth are left
out. -/
def scanFraction : List Char → Option (Nat × List Char)
  | '.' :: rest => do
    let (value, left) ← Scan.digits 1 9 rest
    let count := rest.length - left.length
    return (value * Nat.pow 10 (9 - count), left.dropWhile Char.isDigit)
  | text => some (0, text)

/-- Reads hours and minutes with a sign, or the letter for universal time, as the seconds by which
local time is ahead. -/
def scanDistance : List Char → Option (Int × List Char)
  | 'Z' :: rest => some (0, rest)
  | 'z' :: rest => some (0, rest)
  | sign :: rest => do
    let factor : Int ←
      if sign = '+' then some 1 else if sign = '-' ∨ sign = '−' then some (-1) else none
    let (hours, rest) ← Scan.digits 2 2 rest
    let rest := rest.dropWhile fun c => c == ':' || Text.isBlank c
    let (minutes, rest) ← Scan.digits 2 2 rest
    if hours < 24 ∧ minutes < 60 then some (factor * (hours * 3600 + minutes * 60 : Nat), rest)
    else none
  | [] => none

/-- Reads the seconds by which local time is ahead of universal time, which has a letter and a
name. -/
def scanOffset (text : List Char) : Option (Int × List Char) :=
  if (text.take 3).map Char.toUpper = ['U', 'T', 'C'] then some (0, text.drop 3)
  else scanDistance text

/-- The instant that comes so many seconds after the start of 1970, if its day is a date. -/
def make? (seconds : Int) (nanoseconds : Nat) : Option Instant :=
  if Date.hasYear (Date.ofDayNumber (seconds.fdiv 86400)).year then some ⟨seconds, nanoseconds⟩
  else none

/-- The instant that a text spells. -/
def ofText? (text : String) : Option Instant := do
  let (date, rest) ← Date.scan text.toList
  let rest ← match rest with
    | c :: rest => if c = 'T' ∨ c = 't' ∨ c = ' ' then some rest else none
    | [] => none
  let (hour, rest) ← Scan.twoDigits rest
  let rest ← Scan.literal ':' (Scan.blanks rest)
  let (minute, rest) ← Scan.twoDigits rest
  let rest ← Scan.literal ':' (Scan.blanks rest)
  let (second, rest) ← Scan.twoDigits rest
  let (fraction, rest) ← scanFraction rest
  let (offset, rest) ← scanOffset (Scan.blanks rest)
  if (Scan.blanks rest).isEmpty ∧ hour < 24 ∧ minute < 60 ∧ second ≤ 60 then
    let leap := if second = 60 then 1 else 0
    let time : Nat := hour * 3600 + minute * 60 + (second - leap)
    make? (date.dayNumber * 86400 + time - offset) (fraction + leap * 1000000000)
  else none

/-! ### Writing -/

/-- The fraction digits with the point before them, and nothing for a whole second. -/
def fractionText (nanoseconds : Nat) : String :=
  if nanoseconds = 0 then ""
  else if nanoseconds % 1000000 = 0 then "." ++ Date.padded 3 (nanoseconds / 1000000)
  else if nanoseconds % 1000 = 0 then "." ++ Date.padded 6 (nanoseconds / 1000)
  else "." ++ Date.padded 9 nanoseconds

/-- The text in universal time. -/
def text (t : Instant) : String :=
  let days := t.seconds.fdiv 86400
  let time := (t.seconds - days * 86400).toNat
  let leap := t.nanoseconds / 1000000000
  let date := (Date.ofDayNumber days).text
  let hour := Date.padded 2 (time / 3600)
  let minute := Date.padded 2 (time / 60 % 60)
  let second := Date.padded 2 (time % 60 + leap)
  s!"{date}T{hour}:{minute}:{second}{fractionText (t.nanoseconds % 1000000000)}Z"

end Instant

end Objectives
