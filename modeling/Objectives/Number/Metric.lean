/- # Metric arithmetic

Progress along a metric is computed by the same formulas whatever the numbers are.  The formulas
ask for a few operations only, which this module collects in one class; doubles have them by
rounded arithmetic, and any ordered field can have them exactly.

Main definitions:

* `Metric` — the operations that progress is computed with.
-/

import Objectives.Number.Double

set_option relaxedAutoImplicit false
set_option autoImplicit false

namespace Objectives

/-- The numbers a metric is measured in. -/
class Metric (α : Type) where
  /-- A natural number as a metric value. -/
  ofNat : Nat → α
  add : α → α → α
  sub : α → α → α
  mul : α → α → α
  div : α → α → α
  /-- Smaller, as a number. -/
  less : α → α → Bool
  /-- Smaller or equal, as a number. -/
  atMost : α → α → Bool
  /-- Equal, as a number. -/
  equal : α → α → Bool
  /-- Not after, in the order in which values are sorted. -/
  before : α → α → Bool
  /-- The nearest natural number to a positive value, a half going up. -/
  nearest : α → Nat

/-- Doubles are compared as numbers, sorted by their total order and calculated with rounding. -/
instance : Metric Double where
  ofNat := Double.ofNat
  add := Double.add
  sub := Double.sub
  mul := Double.mul
  div := Double.div
  less := Double.less
  atMost := Double.atMost
  equal := Double.equal
  before x y := x.totalRank ≤ y.totalRank
  nearest := Double.nearest

end Objectives
