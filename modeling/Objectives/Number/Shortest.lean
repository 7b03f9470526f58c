/- # The shortest text of a double

Of all decimals that are read back as a double, the one with the fewest digits is written, and of
several with that number of digits the nearest.

Main definitions:

* `Double.Spread` — a positive double with the decimals that are read back as it;
* `Double.Spread.onGrid?` — the nearest of these decimals on a grid of powers of ten;
* `Double.shortest` — the digits and the exponent of the shortest;
* `Double.text` — the text, without an exponent.
-/

import Objectives.Number.Double

set_option relaxedAutoImplicit false
set_option autoImplicit false

namespace Objectives.Double

/-- A positive double `center * 2 ^ exponent`, and the ends of the interval of all that is rounded
to it. -/
structure Spread where
  low : Nat
  center : Nat
  high : Nat
  exponent : Int
  /-- Whether the ends are rounded to the double as well. -/
  closed : Bool

namespace Spread

/-- The interval of a finite double, its sign left out.  The next double below is half as far away
as the one above where the exponent changes. -/
def ofDouble (x : Double) : Spread :=
  let exponent := x.magnitude / exponentBit
  let fraction := x.magnitude % exponentBit
  let m := if exponent = 0 then fraction else fraction + exponentBit
  { low := 4 * m - (if fraction = 0 ∧ 1 < exponent then 1 else 2)
    center := 4 * m
    high := 4 * m + 2
    exponent := (max exponent 1 : Nat) - 1077
    closed := m % 2 = 0 }

/-- The factors by which multiples of `2 ^ exponent` and of `10 ^ power` are compared. -/
def scale (s : Spread) (power : Int) : Nat × Nat :=
  (Nat.pow 2 s.exponent.toNat * Nat.pow 10 (-power).toNat,
    Nat.pow 2 (-s.exponent).toNat * Nat.pow 10 power.toNat)

/-- Whether a multiple of a power of ten lies in the interval. -/
def admits (s : Spread) (power : Int) (digits : Nat) : Bool :=
  let (binary, decimal) := s.scale power
  if s.closed then s.low * binary ≤ digits * decimal && digits * decimal ≤ s.high * binary
  else s.low * binary < digits * decimal && digits * decimal < s.high * binary

/-- The multiple of a power of ten that is read back and lies nearest; of two equally near, the even
one. -/
def onGrid? (s : Spread) (power : Int) : Option Nat :=
  let (binary, decimal) := s.scale power
  let below := s.center * binary / decimal
  let rest := s.center * binary % decimal
  let upward := decimal < 2 * rest || (decimal == 2 * rest && below % 2 == 1)
  let (first, second) := if upward then (below + 1, below) else (below, below + 1)
  if s.admits power first then some first
  else if s.admits power second then some second
  else none

end Spread

/-- The digits and the exponent of the shortest decimal that is read back as a positive finite
double.  Grids are tried from coarse to fine; the finest of them holds every double. -/
def shortest (x : Double) : Nat × Int :=
  let s := Spread.ofDouble x
  let powers := (List.range 700).map fun i : Nat => 310 - (i : Int)
  match powers.findSome? fun power => (s.onGrid? power).map fun digits => (digits, power) with
  | some found => found
  | none => (0, 0)

/-- Digits at an exponent, written without one. -/
def plainText (digits : Nat) (exponent : Int) : String :=
  let ds := (toString digits).toList
  if 0 ≤ exponent then String.ofList (ds ++ List.replicate exponent.toNat '0')
  else
    let places := (-exponent).toNat
    let ds := List.replicate (places + 1 - ds.length) '0' ++ ds
    String.ofList (ds.take (ds.length - places) ++ '.' :: ds.drop (ds.length - places))

/-- The text of a double: its shortest decimal without an exponent. -/
def text (x : Double) : String :=
  if x.isNaN then "NaN"
  else
    let size :=
      if x.magnitude = infinity then "inf"
      else if x.magnitude = 0 then "0"
      else plainText x.shortest.1 x.shortest.2
    if x.isNegative then "-" ++ size else size

end Objectives.Double
