/- # Doubles

A measured value is a double of IEEE 754, kept as its 64 bits, so that two values are the same
exactly when nothing can tell them apart: the two zeros differ, and so do two values that are not
numbers.  Comparisons are read off the bits; arithmetic goes through `Float`.

Main definitions:

* `Double.rank` — the place of a double on the number line, both zeros at one place;
* `Double.totalRank` — its place in the total order of all doubles, where the negative zero
  precedes the positive one;
* `Double.sortRank` — its place in a database's order, where every value that is not a number
  comes last;
* `Double.nearest` — the nearest natural number, computed on the bits.

Main results:

* `Double.totalRank_injective` — the total order tells any two doubles apart.
-/

set_option relaxedAutoImplicit false
set_option autoImplicit false

namespace Objectives

/-- A double, as its bits: one sign bit, eleven bits of exponent, 52 bits of fraction. -/
structure Double where
  bits : UInt64
  deriving DecidableEq, Repr

namespace Double

/-! ### Parts of a double -/

/-- The bits as a natural number. -/
def code (x : Double) : Nat := x.bits.toNat

/-- The sign bit alone. -/
def signBit : Nat := 0x8000000000000000

/-- The lowest bit of the exponent alone; the bits below it are the fraction. -/
def exponentBit : Nat := 0x10000000000000

/-- Whether the sign bit is set. -/
def isNegative (x : Double) : Bool := signBit ≤ x.code

/-- The bits without the sign; they grow with the absolute value. -/
def magnitude (x : Double) : Nat := x.code % signBit

/-- The magnitude of the infinities. -/
def infinity : Nat := 0x7ff0000000000000

/-- A number that is not infinite. -/
def isFinite (x : Double) : Bool := x.magnitude < infinity

/-- None of the numbers, and no infinity either. -/
def isNaN (x : Double) : Bool := infinity < x.magnitude

/-! ### Orders -/

/-- The place on the number line.  Both zeros are at 0. -/
def rank (x : Double) : Int :=
  if x.isNegative then -(x.magnitude : Int) else x.magnitude

/-- The place in the total order of all doubles. -/
def totalRank (x : Double) : Int :=
  if x.isNegative then -(x.magnitude : Int) - 1 else x.magnitude

/-- The place in a database's order: the number line, then whatever is not a number. -/
def sortRank (x : Double) : Int :=
  if x.isNaN then signBit else x.rank

/-- Smaller as a number; false when a side is not a number. -/
def less (x y : Double) : Bool :=
  !x.isNaN && !y.isNaN && x.rank < y.rank

/-- Smaller or equal as a number; false when a side is not a number. -/
def atMost (x y : Double) : Bool :=
  !x.isNaN && !y.isNaN && x.rank ≤ y.rank

/-- Equal as a number: the zeros are equal, and what is not a number equals nothing. -/
def equal (x y : Double) : Bool :=
  !x.isNaN && !y.isNaN && x.rank == y.rank

/-- The total order tells any two doubles apart. -/
theorem totalRank_injective {x y : Double} (h : x.totalRank = y.totalRank) : x = y := by
  have hx : x.code < 2 ^ 64 := x.bits.toNat_lt
  have hy : y.code < 2 ^ 64 := y.bits.toNat_lt
  have hcode : x.code = y.code := by
    simp only [totalRank, isNegative, magnitude, decide_eq_true_eq] at h
    split at h <;> split at h <;> simp only [signBit] at * <;> omega
  cases x with
  | mk a =>
    cases y with
    | mk b => exact congrArg mk (UInt64.toNat_inj.1 hcode)

/-! ### Arithmetic -/

/-- The double as a number to calculate with. -/
def toFloat (x : Double) : Float := Float.ofBits x.bits

/-- The bits of a calculated number. -/
def ofFloat (x : Float) : Double := ⟨x.toBits⟩

/-- The difference, rounded to a double. -/
def sub (x y : Double) : Double := ofFloat (x.toFloat - y.toFloat)

/-- The sum, rounded to a double. -/
def add (x y : Double) : Double := ofFloat (x.toFloat + y.toFloat)

/-- The product, rounded to a double. -/
def mul (x y : Double) : Double := ofFloat (x.toFloat * y.toFloat)

/-- The quotient, rounded to a double. -/
def div (x y : Double) : Double := ofFloat (x.toFloat / y.toFloat)

/-- The double nearest to a natural number. -/
def ofNat (n : Nat) : Double := ofFloat (Float.ofNat n)

/-- The double nearest to the decimal `digits * 10 ^ exponent`, with a sign of its own so that a
negative zero can be named. -/
def ofDecimal (negative : Bool) (digits : Nat) (exponent : Int) : Double :=
  let size := (Float.ofScientific digits (exponent < 0) exponent.natAbs).toBits
  ⟨if negative then size ||| 0x8000000000000000 else size⟩

/-- The nearest natural number to a positive double, a half going up.  The double is `m * 2 ^ q`
with `m` its fraction; for a negative `q` the quotient of `m + 2 ^ (-q - 1)` by `2 ^ (-q)` is
rounded down. -/
def nearest (x : Double) : Nat :=
  let exponent := x.magnitude / exponentBit
  let fraction := x.magnitude % exponentBit
  let m := if exponent = 0 then fraction else fraction + exponentBit
  let e := max exponent 1
  if 1075 ≤ e then m * Nat.pow 2 (e - 1075)
  else (m + Nat.pow 2 (1074 - e)) / Nat.pow 2 (1075 - e)

/-! ### Text -/

/-- The sixteen lower-case digits that spell the bits in base 16. -/
def hexDigits (x : Double) : String :=
  String.ofList ((List.range 16).reverse.map fun place =>
    Nat.digitChar (x.code / Nat.pow 16 place % 16))

/-- The positive infinity. -/
def posInfinity : Double := ⟨0x7ff0000000000000⟩

/-- The negative infinity. -/
def negInfinity : Double := ⟨0xfff0000000000000⟩

/-- The usual value that is not a number. -/
def nan : Double := ⟨0x7ff8000000000000⟩

/-- The negative zero. -/
def negZero : Double := ⟨0x8000000000000000⟩

end Double

end Objectives
