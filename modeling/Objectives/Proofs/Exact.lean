/- # Exact metric arithmetic

The formulas of progress, read over the rational numbers: nothing is rounded but the percentage at
the end.

Main results:

* `Percentage.value_ofMetric` — **the percentage of a number between 0 and 100** is the nearest integer,
  a half going up.
-/

import Mathlib.Data.Rat.Floor
import Mathlib.Tactic.Linarith
import Objectives.Percentage

set_option relaxedAutoImplicit false
set_option autoImplicit false

namespace Objectives

/-- Rational numbers are compared, sorted and calculated with exactly. -/
instance : Metric ℚ where
  ofNat n := n
  add x y := x + y
  sub x y := x - y
  mul x y := x * y
  div x y := x / y
  less x y := decide (x < y)
  atMost x y := decide (x ≤ y)
  equal x y := decide (x = y)
  before x y := decide (x ≤ y)
  nearest x := ⌊x + 1 / 2⌋.toNat

namespace Metric

variable (x y : ℚ)

@[simp] theorem ofNat_rat (n : ℕ) : (ofNat n : ℚ) = n := rfl

@[simp] theorem add_rat : add x y = x + y := rfl

@[simp] theorem sub_rat : sub x y = x - y := rfl

@[simp] theorem mul_rat : mul x y = x * y := rfl

@[simp] theorem div_rat : div x y = x / y := rfl

@[simp] theorem less_rat : less x y = decide (x < y) := rfl

@[simp] theorem atMost_rat : atMost x y = decide (x ≤ y) := rfl

@[simp] theorem equal_rat : equal x y = decide (x = y) := rfl

@[simp] theorem before_rat : before x y = decide (x ≤ y) := rfl

@[simp] theorem nearest_rat : nearest x = ⌊x + 1 / 2⌋.toNat := rfl

end Metric

namespace Percentage

/-- Half a percent more, rounded down, is no less than nothing and no more than all. -/
theorem floor_mem {x : ℚ} (h0 : 0 ≤ x) (h1 : x ≤ 100) : 0 ≤ ⌊x + 1 / 2⌋ ∧ ⌊x + 1 / 2⌋ ≤ 100 := by
  constructor
  · rw [Int.floor_nonneg]
    linarith
  · have hlt : ⌊x + 1 / 2⌋ < 101 := by
      rw [Int.floor_lt]
      push_cast
      linarith
    omega

/-- **The percentage of a number between 0 and 100** is the nearest integer, a half going up. -/
theorem value_ofMetric {x : ℚ} (h0 : 0 ≤ x) (h1 : x ≤ 100) :
    ((ofMetric x).value : ℤ) = ⌊x + 1 / 2⌋ := by
  have hfloor := floor_mem h0 h1
  simp only [ofMetric, Metric.less_rat, Metric.ofNat_rat, Metric.atMost_rat, Metric.nearest_rat,
    Nat.cast_zero, Nat.cast_ofNat, decide_eq_true_eq]
  split
  case isTrue hpos =>
    split
    case isTrue hall =>
      have hx : x = 100 := le_antisymm h1 hall
      rw [hx, hundred]
      norm_num
    case isFalse =>
      simp only [clamp]
      omega
  case isFalse hpos =>
    have hx : x = 0 := le_antisymm (not_lt.1 hpos) h0
    rw [hx, zero]
    norm_num

end Percentage

end Objectives
