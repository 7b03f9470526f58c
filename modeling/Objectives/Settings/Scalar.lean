/- # Values of settings

A value is given as text.  It is taken for a truth value or a number if it looks like one, and a
setting then takes what it can make of it.

Main definitions:

* `Scalar`, `Scalar.ofText` — what a value looks like;
* `Scalar.asText`, `Scalar.asBool`, `Scalar.asNat64`, `Scalar.asNat32` — what a setting makes of a
  value.

Main results:

* `Scalar.asNat32_lt` — a number of 32 bits fits 32 bits.
-/

import Objectives.Number.Decimal
import Objectives.Number.Shortest
import Objectives.Text.Integer

set_option relaxedAutoImplicit false
set_option autoImplicit false

namespace Objectives

/-- What a value looks like. -/
inductive Scalar
  | bool (b : Bool)
  | int (n : Int)
  | real (x : Double)
  | text (s : String)
  deriving DecidableEq, Repr

namespace Scalar

/-- The value of a text: a truth value, else an integer, else a number, else the text. -/
def ofText (s : String) : Scalar :=
  if s.toLower = "true" then bool true
  else if s.toLower = "false" then bool false
  else
    match Text.readInteger s with
    | .ok n => int n
    | .error _ =>
      match Decimal.ofText? s with
      | some x => real x
      | none => text s

/-- The value as a text. -/
def asText : Scalar → String
  | bool b => if b then "true" else "false"
  | int n => toString n
  | real x => x.text
  | text s => s

/-- The value as a truth value. -/
def asBool : Scalar → Option Bool
  | bool b => some b
  | int n => some (n != 0)
  | real x => some (!x.equal (.ofNat 0))
  | text s =>
    if s.toLower = "on" ∨ s.toLower = "yes" then some true
    else if s.toLower = "off" ∨ s.toLower = "no" then some false
    else none

/-- The value as an unsigned number of 64 bits.  Of a number with a fraction the nearest is taken
that fits. -/
def asNat64 : Scalar → Option Nat
  | bool b => some (if b then 1 else 0)
  | int n => if n < 0 then none else some n.toNat
  | real x => some (if x.isNaN || x.isNegative then 0 else min x.nearest 0xffffffffffffffff)
  | text s =>
    if s.toLower = "on" ∨ s.toLower = "yes" then some 1
    else if s.toLower = "off" ∨ s.toLower = "no" then some 0
    else none

/-- The value as an unsigned number of 32 bits: the one of 64 bits, if it is not too large. -/
def asNat32 (s : Scalar) : Option Nat :=
  s.asNat64.filter (· < 0x100000000)

/-- What is read as a number of 32 bits fits 32 bits. -/
theorem asNat32_lt {s : Scalar} {n : Nat} (h : s.asNat32 = some n) : n < 0x100000000 := by
  simpa using (Option.filter_eq_some_iff.mp h).2

end Scalar

end Objectives
