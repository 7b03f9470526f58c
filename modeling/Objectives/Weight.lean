/- # Weights

A weight says how much an item counts inside its group, from 0 to 100.  An item of weight 0 is
shown and counts nothing.

Main definitions:

* `Weight` — a weight with its bound;
* `Weight.octet` — the range check for a named field with a lower bound of its own;
* `Weight.ofInt` — the weight of that value.
-/

import Objectives.Violation

set_option relaxedAutoImplicit false
set_option autoImplicit false

namespace Objectives

/-- A weight between 0 and 100. -/
structure Weight where
  value : Nat
  le_hundred : value ≤ 100
  deriving Repr

namespace Weight

/-- Two weights of one value are the same weight. -/
@[ext] theorem ext {a b : Weight} (h : a.value = b.value) : a = b := by
  cases a; cases b; cases h; rfl

instance : DecidableEq Weight := fun a b =>
  if h : a.value = b.value then isTrue (ext h)
  else isFalse fun hab => h (congrArg value hab)

/-- The greatest value is one that a weight can have. -/
theorem greatest : 100 ≤ 100 := Nat.le_refl 100

/-- The greatest weight. -/
def max : Weight := ⟨100, greatest⟩

/-- Checks a value for a named field, between a lower bound and 100, and gives its low octet.  A
negative value that a negative bound admits is counted back from 256. -/
def octet (field : String) (value low : Int) : Except Violation Nat :=
  if value < low ∨ 100 < value then .error (.outOfRange field low 100 value)
  else .ok (value % 256).toNat

/-- A number up to 100 is one that a weight can have. -/
theorem toNat_le {value : Int} (h : 0 ≤ value ∧ value ≤ 100) : value.toNat ≤ 100 := by
  omega

/-- The weight of a value between 0 and 100. -/
def ofInt (value : Int) : Except Violation Weight :=
  if h : 0 ≤ value ∧ value ≤ 100 then .ok ⟨value.toNat, toNat_le h⟩
  else .error (.outOfRange "weight" 0 100 value)

/-- The weight of a stage; a stage of weight 0 could never move progress. -/
def ofStage (value : Int) : Except Violation Weight :=
  if h : 1 ≤ value ∧ value ≤ 100 then .ok ⟨value.toNat, by omega⟩
  else .error (.outOfRange "stage_weight" 1 100 value)

/-- Every weight is the weight of its own value. -/
@[simp] theorem ofInt_value (w : Weight) : ofInt (w.value : Int) = .ok w := by
  have h := w.le_hundred
  unfold ofInt
  rw [dif_pos (by omega)]
  simp

/-- The check with lower bound 0 accepts exactly the values that are weights. -/
theorem octet_zero (value : Int) :
    octet "weight" value 0 = (ofInt value).map Weight.value := by
  unfold octet ofInt
  by_cases h : 0 ≤ value ∧ value ≤ 100
  · rw [if_neg (by omega), dif_pos h]
    simp only [Except.map]
    congr 1
    omega
  · rw [if_pos (by omega), dif_neg h]
    rfl

end Weight

end Objectives
