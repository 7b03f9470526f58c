/- # Percentages

Every computed progress is a whole number of percent between 0 and 100.

Main definitions:

* `Percentage` — a percentage with its bound;
* `Percentage.clamp`, `Percentage.ofInt` — from an integer, cut to the range or refused outside it;
* `Percentage.ofMetric` — from a metric value: rounded to the nearest, a half going up, and cut to
  the range.
-/

import Objectives.Violation
import Objectives.Number.Metric

set_option relaxedAutoImplicit false
set_option autoImplicit false

namespace Objectives

/-- A percentage between 0 and 100. -/
structure Percentage where
  value : Nat
  le_hundred : value ≤ 100
  deriving DecidableEq, Repr

namespace Percentage

/-- Two percentages of one value are the same percentage. -/
@[ext] theorem ext {a b : Percentage} (h : a.value = b.value) : a = b := by
  cases a; cases b; cases h; rfl

/-- Nothing done. -/
def zero : Percentage := ⟨0, by decide⟩

/-- All done. -/
def hundred : Percentage := ⟨100, by decide⟩

/-- The percentage of a natural number, at most 100. -/
def clamp (value : Nat) : Percentage := ⟨min value 100, by omega⟩

/-- The percentage of a value between 0 and 100. -/
def ofInt (value : Int) : Except Violation Percentage :=
  if h : 0 ≤ value ∧ value ≤ 100 then .ok ⟨value.toNat, by omega⟩
  else .error (.outOfRange "percentage" 0 100 value)

/-- Every percentage is the percentage of its own value. -/
@[simp] theorem ofInt_value (p : Percentage) : ofInt (p.value : Int) = .ok p := by
  have h := p.le_hundred
  unfold ofInt
  rw [dif_pos (by omega)]
  simp

/-- The percentage nearest to a metric value.  What is not above 0, or is no number, counts as 0. -/
def ofMetric {α : Type} [Metric α] (value : α) : Percentage :=
  if Metric.less (Metric.ofNat 0) value then
    if Metric.atMost (Metric.ofNat 100) value then hundred else clamp (Metric.nearest value)
  else zero

/-- The percentage as a fraction of one. -/
def fraction (p : Percentage) : Double :=
  Metric.div (Metric.ofNat p.value) (Metric.ofNat 100)

end Percentage

end Objectives
