/- # Decimal numbers in text

A decimal number is spelled by digits, of which some may follow a point, and by an exponent of ten.
It is read as the double nearest to it.

Main definitions:

* `Decimal.digits`, `Decimal.value`, `Decimal.exponentDigits` — the parts of a decimal number;
* `Decimal.nearest` — the double nearest to a decimal number;
* `Decimal.ofText?` — the double that a text spells.
-/

import Objectives.Number.Double

set_option relaxedAutoImplicit false
set_option autoImplicit false

namespace Objectives.Decimal

/-- Reads decimal digits. -/
def digits (text : List Char) : List Char × List Char :=
  (text.takeWhile Char.isDigit, text.dropWhile Char.isDigit)

/-- The number that digits spell. -/
def value (ds : List Char) : Nat :=
  ds.foldl (fun n d => n * 10 + (d.toNat - '0'.toNat)) 0

/-- Reads a sign, if there is one; a minus sign makes the number negative. -/
def sign : List Char → Bool × List Char
  | '-' :: rest => (true, rest)
  | '+' :: rest => (false, rest)
  | rest => (false, rest)

/-- Reads the digits of an exponent with its sign. -/
def exponentDigits (text : List Char) : Option (Int × List Char) :=
  let (negative, rest) := sign text
  let (ds, rest) := digits rest
  if ds.isEmpty then none
  else some (if negative then -(value ds : Int) else value ds, rest)

/-- Reads an exponent, if there is one. -/
def exponent : List Char → Option (Option Int × List Char)
  | 'e' :: rest => (exponentDigits rest).map fun (e, rest) => (some e, rest)
  | 'E' :: rest => (exponentDigits rest).map fun (e, rest) => (some e, rest)
  | text => some (none, text)

/-- The double nearest to `ds * 10 ^ exponent`.  Exponents far outside the range of doubles are cut
first. -/
def nearest (negative : Bool) (ds : List Char) (exponent : Int) : Double :=
  let size := exponent + ds.length
  if value ds = 0 ∨ size < -400 then Double.ofDecimal negative 0 0
  else if 400 < size then Double.ofDecimal negative 1 400
  else Double.ofDecimal negative (value ds) exponent

/-- The double of a word for no number or for an infinity; capitals do not count. -/
def special? (negative : Bool) (word : List Char) : Option Double :=
  let word := (String.ofList word).toLower
  if word = "nan" then some Double.nan
  else if word = "inf" ∨ word = "infinity" then
    some (if negative then Double.negInfinity else Double.posInfinity)
  else none

/-- The double that a text spells: a sign, digits with or without a point among them, and an
exponent; or one of the words. -/
def ofText? (text : String) : Option Double :=
  let (negative, rest) := sign text.toList
  match special? negative rest with
  | some x => some x
  | none =>
    let (whole, rest) := digits rest
    let (part, rest) := match rest with
      | '.' :: rest => digits rest
      | rest => ([], rest)
    match exponent rest with
    | some (power, []) =>
      if whole.isEmpty && part.isEmpty then none
      else some (nearest negative (whole ++ part) (power.getD 0 - part.length))
    | _ => none

end Objectives.Decimal
