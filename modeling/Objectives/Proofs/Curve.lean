/- # The curve through the checkpoints

Over the rational numbers, the progress of a percent key result is the height of a polyline.  The
points are sorted by their values, and the first line that reaches over the present value is taken.
Up to the left end of that line all points lie before the present value, so that its right end is the
first point which does not: where the value is that of points, this is the first of them, and otherwise
the two ends are the points between which the value lies.

Main definitions:

* `Progress.givenPoints` — the points of the curve as they are given;
* `Progress.lineThrough`, `Progress.OnPolyline` — the straight line through two points, and the
  polyline through all of them.

Main results:

* `Progress.exists_bracket` — the search for a line finds one;
* `Progress.heightAt?_eq_some_iff` — what it finds is the height of the polyline;
* `Progress.alongCurve_low`, `Progress.alongCurve_high`, `Progress.OnPolyline.value_alongCurve` — the
  progress along the points, up to the first of them, from the last of them on, and between;
* `Progress.percent_eq_polyline` — **the progress along the curve is the height of the polyline**.
-/

import Mathlib.Tactic.FieldSimp
import Objectives.Progress
import Objectives.Proofs.Exact
import Objectives.Proofs.Sorting

set_option relaxedAutoImplicit false
set_option autoImplicit false

namespace Objectives

/-! ### Splitting a list -/

/-- A list is taken apart in one way only where a property first fails. -/
theorem append_cons_inj {α : Type} {p : α → Prop} {a a' b b' : List α} {x y : α} (ha : ∀ z ∈ a, p z)
    (hx : ¬ p x) (hb : ∀ z ∈ b, p z) (hy : ¬ p y) (h : a ++ x :: a' = b ++ y :: b') :
    a = b ∧ x = y ∧ a' = b' := by
  induction a generalizing b with
  | nil =>
    cases b with
    | nil =>
      rw [List.nil_append, List.nil_append, List.cons.injEq] at h
      exact ⟨rfl, h⟩
    | cons z b =>
      rw [List.nil_append, List.cons_append, List.cons.injEq] at h
      exact absurd (h.1 ▸ hb z (List.mem_cons_self ..)) hx
  | cons w a ih =>
    cases b with
    | nil =>
      rw [List.nil_append, List.cons_append, List.cons.injEq] at h
      exact absurd (h.1 ▸ ha w (List.mem_cons_self ..)) hy
    | cons z b =>
      rw [List.cons_append, List.cons_append, List.cons.injEq] at h
      obtain ⟨rfl, h⟩ := h
      obtain ⟨rfl, heq⟩ := ih (fun v hv => ha v (List.mem_cons_of_mem _ hv))
        (fun v hv => hb v (List.mem_cons_of_mem _ hv)) h
      exact ⟨rfl, heq⟩

namespace Progress

/-! ### The polyline -/

section Polyline

variable {a b p : ControlPoint ℚ} {points before after : List (ControlPoint ℚ)} {value height : ℚ}

/-- The height, at a value, of the straight line through two points. -/
def lineThrough (a b : ControlPoint ℚ) (value : ℚ) : ℚ :=
  a.percent.value +
    (b.percent.value - a.percent.value) / (b.value - a.value) * (value - a.value)

/-- The polyline through points has a height at a value.  At the value of points it is the percent of
the first of them; between the values of two consecutive points it is that of the line through them. -/
inductive OnPolyline (points : List (ControlPoint ℚ)) : ℚ → ℚ → Prop
  | point {before after : List (ControlPoint ℚ)} {p : ControlPoint ℚ} :
      points = before ++ p :: after → (∀ q ∈ before, q.value ≠ p.value) →
      OnPolyline points p.value p.percent.value
  | line {before after : List (ControlPoint ℚ)} {a b : ControlPoint ℚ} {value : ℚ} :
      points = before ++ a :: b :: after → a.value < value → value < b.value →
      OnPolyline points value (lineThrough a b value)

theorem percent_mem (p : ControlPoint ℚ) : 0 ≤ (p.percent.value : ℚ) ∧ (p.percent.value : ℚ) ≤ 100 := by
  refine ⟨Nat.cast_nonneg _, ?_⟩
  exact_mod_cast p.percent.le_hundred

/-- At the second point the line has the height of that. -/
theorem lineThrough_right (h : a.value < b.value) : lineThrough a b b.value = b.percent.value := by
  have hne : b.value - a.value ≠ 0 := (sub_pos.2 h).ne'
  rw [lineThrough, div_mul_cancel₀ _ hne]
  ring

/-- Between two points the line stays between nothing and all. -/
theorem lineThrough_mem (ha : a.value < value) (hb : value ≤ b.value) :
    0 ≤ lineThrough a b value ∧ lineThrough a b value ≤ 100 := by
  have hlength : 0 < b.value - a.value := by linarith
  -- the height is a mean of the two percents, weighted by the distances to the points
  have hmean : lineThrough a b value = (a.percent.value * (b.value - value) +
      b.percent.value * (value - a.value)) / (b.value - a.value) := by
    rw [lineThrough]
    field_simp
    ring
  obtain ⟨ha0, ha1⟩ := percent_mem a
  obtain ⟨hb0, hb1⟩ := percent_mem b
  rw [hmean]
  constructor
  · have hleft : 0 ≤ (a.percent.value : ℚ) * (b.value - value) :=
      mul_nonneg ha0 (by linarith)
    have hright : 0 ≤ (b.percent.value : ℚ) * (value - a.value) :=
      mul_nonneg hb0 (by linarith)
    exact div_nonneg (add_nonneg hleft hright) hlength.le
  · have hleft : (a.percent.value : ℚ) * (b.value - value) ≤ 100 * (b.value - value) :=
      mul_le_mul_of_nonneg_right ha1 (by linarith)
    have hright : (b.percent.value : ℚ) * (value - a.value) ≤ 100 * (value - a.value) :=
      mul_le_mul_of_nonneg_right hb1 (by linarith)
    rw [div_le_iff₀ hlength]
    linarith

/-- The polyline stays between nothing and all. -/
theorem OnPolyline.mem (h : OnPolyline points value height) : 0 ≤ height ∧ height ≤ 100 := by
  cases h with
  | point _ _ => exact percent_mem _
  | line _ ha hb => exact lineThrough_mem ha hb.le

/-- Between two points of different values the program follows the line. -/
theorem interpolate_eq (h : a.value < b.value) : interpolate a b value = lineThrough a b value := by
  simp only [interpolate, Metric.equal_rat, decide_eq_true_eq, h.ne', if_false, Metric.add_rat,
    Metric.mul_rat, Metric.div_rat, Metric.sub_rat, Metric.ofNat_rat, lineThrough]
  ring

/-! ### The search for a line -/

/-- Past the first point, the search looks at the first line, and goes on if the second point lies before
the value as well. -/
theorem heightAt?_cons_cons {rest : List (ControlPoint ℚ)} (h : a.value < value) :
    heightAt? value (a :: b :: rest) =
      if value ≤ b.value then some (lineThrough a b value) else heightAt? value (b :: rest) := by
  by_cases hb : value ≤ b.value
  · rw [heightAt?, if_pos (by simp [h.le, hb]), if_pos hb, interpolate_eq (h.trans_le hb)]
  · rw [heightAt?, if_neg (by simp [hb]), if_neg hb]

/-- **The search for a line finds one** if the first point lies before the value and another does not.
All points up to the left end of that line lie before the value. -/
theorem exists_bracket {first : ControlPoint ℚ} {rest : List (ControlPoint ℚ)}
    (hfirst : first.value < value) (hrest : ∃ q ∈ rest, value ≤ q.value) :
    ∃ before left right after, first :: rest = before ++ left :: right :: after ∧
      (∀ q ∈ before ++ [left], q.value < value) ∧ value ≤ right.value ∧
      heightAt? value (first :: rest) = some (lineThrough left right value) := by
  induction rest generalizing first with
  | nil =>
    obtain ⟨q, hq, -⟩ := hrest
    exact absurd hq List.not_mem_nil
  | cons second rest ih =>
    by_cases hsecond : value ≤ second.value
    · refine ⟨[], first, second, rest, rfl, ?_, hsecond, ?_⟩
      · intro q hq
        rw [List.nil_append, List.mem_singleton] at hq
        exact hq ▸ hfirst
      · rw [heightAt?_cons_cons hfirst, if_pos hsecond]
    · have hlater : ∃ q ∈ rest, value ≤ q.value := by
        obtain ⟨q, hq, hle⟩ := hrest
        rcases List.mem_cons.1 hq with rfl | hq
        · exact absurd hle hsecond
        · exact ⟨q, hq, hle⟩
      obtain ⟨before, left, right, after, heq, hbefore, hright, hheight⟩ :=
        ih (not_le.1 hsecond) hlater
      refine ⟨first :: before, left, right, after, by rw [heq, List.cons_append], ?_, hright, ?_⟩
      · intro q hq
        rw [List.cons_append, List.mem_cons] at hq
        rcases hq with rfl | hq
        · exact hfirst
        · exact hbefore q hq
      · rw [heightAt?_cons_cons hfirst, if_neg hsecond, hheight]

/-- The line that is found belongs to the polyline. -/
theorem onPolyline_of_bracket (heq : points = before ++ a :: b :: after)
    (hbefore : ∀ q ∈ before ++ [a], q.value < value) (hb : value ≤ b.value) :
    OnPolyline points value (lineThrough a b value) := by
  have ha : a.value < value := hbefore a (by simp)
  rcases hb.eq_or_lt with rfl | hlt
  · rw [lineThrough_right ha]
    have hsplit : points = (before ++ [a]) ++ b :: after := by
      rw [heq, List.append_cons]
    exact .point hsplit fun q hq => (hbefore q hq).ne
  · exact .line heq ha hlt

/-- A height of the polyline is that of the line that is found. -/
theorem OnPolyline.eq_lineThrough (h : OnPolyline points value height)
    (ordered : points.Pairwise fun p q => p.value ≤ q.value)
    (heq : points = before ++ a :: b :: after)
    (hbefore : ∀ q ∈ before ++ [a], q.value < value) (hb : value ≤ b.value) :
    height = lineThrough a b value := by
  have ha : a.value < value := hbefore a (by simp)
  rw [List.append_cons] at heq
  cases h with
  | @point before' after' p heq' hfresh =>
    -- the points before the first one of the value lie before the value
    have hbefore' : ∀ q ∈ before', q.value < p.value := by
      intro q hq
      rw [heq'] at ordered
      have hle := (List.pairwise_append.1 ordered).2.2 q hq p (List.mem_cons_self ..)
      exact lt_of_le_of_ne hle (hfresh q hq)
    obtain ⟨-, rfl, -⟩ := append_cons_inj hbefore' (lt_irrefl _) hbefore (not_lt.2 hb)
      (heq'.symm.trans heq)
    exact (lineThrough_right ha).symm
  | @line before' after' a' b' _ heq' ha' hb' =>
    rw [List.append_cons] at heq'
    have hbefore' : ∀ q ∈ before' ++ [a'], q.value < value := by
      intro q hq
      rcases List.mem_append.1 hq with hq | hq
      · rw [heq', List.append_assoc] at ordered
        have hle := (List.pairwise_append.1 ordered).2.2 q hq a' (by simp)
        exact hle.trans_lt ha'
      · exact List.mem_singleton.1 hq ▸ ha'
    obtain ⟨hlast, rfl, -⟩ := append_cons_inj hbefore' hb'.not_gt hbefore (not_lt.2 hb)
      (heq'.symm.trans heq)
    obtain ⟨-, hlast⟩ := List.append_inj' hlast rfl
    cases hlast
    rfl

/-! ### The progress along the points -/

/-- Of points in order the first lies before a value if any does. -/
theorem head_lt {first : ControlPoint ℚ} {rest : List (ControlPoint ℚ)}
    (ordered : (first :: rest).Pairwise fun p q => p.value ≤ q.value)
    (hlow : ∃ p ∈ first :: rest, p.value < value) : first.value < value := by
  obtain ⟨p, hp, hlt⟩ := hlow
  rcases List.mem_cons.1 hp with rfl | hp
  · exact hlt
  · exact ((List.pairwise_cons.1 ordered).1 p hp).trans_lt hlt

/-- The search succeeds among points in order of which one lies before the value and one does not. -/
theorem exists_bracket_of_ordered (ordered : points.Pairwise fun p q => p.value ≤ q.value)
    (hlow : ∃ p ∈ points, p.value < value) (hhigh : ∃ q ∈ points, value ≤ q.value) :
    ∃ before left right after, points = before ++ left :: right :: after ∧
      (∀ q ∈ before ++ [left], q.value < value) ∧ value ≤ right.value ∧
      heightAt? value points = some (lineThrough left right value) := by
  cases points with
  | nil =>
    obtain ⟨p, hp, -⟩ := hlow
    exact absurd hp List.not_mem_nil
  | cons first rest =>
    have hfirst : first.value < value := head_lt ordered hlow
    refine exists_bracket hfirst ?_
    obtain ⟨q, hq, hle⟩ := hhigh
    rcases List.mem_cons.1 hq with rfl | hq
    · exact absurd hfirst (not_lt.2 hle)
    · exact ⟨q, hq, hle⟩

/-- **What the search finds is the height of the polyline.** -/
theorem heightAt?_eq_some_iff (ordered : points.Pairwise fun p q => p.value ≤ q.value)
    (hlow : ∃ p ∈ points, p.value < value) (hhigh : ∃ q ∈ points, value ≤ q.value) :
    heightAt? value points = some height ↔ OnPolyline points value height := by
  obtain ⟨before, left, right, after, heq, hbefore, hright, hheight⟩ :=
    exists_bracket_of_ordered ordered hlow hhigh
  rw [hheight, Option.some_inj]
  constructor
  · rintro rfl
    exact onPolyline_of_bracket heq hbefore hright
  · intro h
    exact (h.eq_lineThrough ordered heq hbefore hright).symm

/-- The polyline reaches over every value between those of the first and the last point. -/
theorem exists_onPolyline (ordered : points.Pairwise fun p q => p.value ≤ q.value)
    (hlow : ∃ p ∈ points, p.value < value) (hhigh : ∃ q ∈ points, value ≤ q.value) :
    ∃ height, OnPolyline points value height := by
  obtain ⟨before, left, right, after, heq, hbefore, hright, -⟩ :=
    exists_bracket_of_ordered ordered hlow hhigh
  exact ⟨_, onPolyline_of_bracket heq hbefore hright⟩

/-- Up to the first point there is no progress. -/
theorem alongCurve_low (h : ∀ p ∈ points, value ≤ p.value) :
    alongCurve value points = Percentage.zero := by
  unfold alongCurve
  split
  · rename_i first last hfirst _
    rw [if_pos]
    exact decide_eq_true (h first (List.mem_of_mem_head? hfirst))
  · rfl

/-- From the last point on all is done. -/
theorem alongCurve_high (ordered : points.Pairwise fun p q => p.value ≤ q.value)
    (hlow : ∃ p ∈ points, p.value < value) (h : ∀ p ∈ points, p.value ≤ value) :
    alongCurve value points = Percentage.hundred := by
  cases points with
  | nil =>
    obtain ⟨p, hp, -⟩ := hlow
    exact absurd hp List.not_mem_nil
  | cons first rest =>
    have hlast : ((first :: rest).getLast (List.cons_ne_nil _ _)).value ≤ value :=
      h _ (List.getLast_mem _)
    rw [alongCurve, List.head?_cons, List.getLast?_eq_some_getLast (List.cons_ne_nil _ _)]
    simp only [Metric.atMost_rat, decide_eq_true_eq]
    rw [if_neg (not_le.2 (head_lt ordered hlow)), if_pos hlast]

/-- Between the first and the last point the progress is the height that is found. -/
theorem alongCurve_between (ordered : points.Pairwise fun p q => p.value ≤ q.value)
    (hlow : ∃ p ∈ points, p.value < value) (hhigh : ∃ q ∈ points, value < q.value)
    (hheight : heightAt? value points = some height) :
    alongCurve value points = Percentage.ofMetric height := by
  cases points with
  | nil =>
    obtain ⟨p, hp, -⟩ := hlow
    exact absurd hp List.not_mem_nil
  | cons first rest =>
    have hfirst : first.value < value := head_lt ordered hlow
    have hlast : value < ((first :: rest).getLast (List.cons_ne_nil _ _)).value := by
      obtain ⟨q, hq, hgt⟩ := hhigh
      rw [← List.dropLast_append_getLast (List.cons_ne_nil first rest)] at ordered hq
      rcases List.mem_append.1 hq with hq | hq
      · exact hgt.trans_le ((List.pairwise_append.1 ordered).2.2 q hq _ (List.mem_singleton_self _))
      · exact List.mem_singleton.1 hq ▸ hgt
    rw [alongCurve, List.head?_cons, List.getLast?_eq_some_getLast (List.cons_ne_nil _ _)]
    simp only [Metric.atMost_rat, decide_eq_true_eq]
    rw [if_neg (not_le.2 hfirst), if_neg (not_le.2 hlast), hheight]

/-- **Between the first and the last point the progress is the height of the polyline**, rounded. -/
theorem OnPolyline.value_alongCurve (h : OnPolyline points value height)
    (ordered : points.Pairwise fun p q => p.value ≤ q.value)
    (hlow : ∃ p ∈ points, p.value < value) (hhigh : ∃ q ∈ points, value < q.value) :
    ((alongCurve value points).value : ℤ) = ⌊height + 1 / 2⌋ := by
  have hheight : heightAt? value points = some height := by
    obtain ⟨q, hq, hgt⟩ := hhigh
    exact (heightAt?_eq_some_iff ordered hlow ⟨q, hq, hgt.le⟩).2 h
  rw [alongCurve_between ordered hlow hhigh hheight]
  exact Percentage.value_ofMetric h.mem.1 h.mem.2

end Polyline

/-! ### The progress of a percent key result -/

section Percent

variable {range : MetricRange ℚ} {checkpoints : List (ControlPoint ℚ)}

/-- The points of the curve as they are given: the start, the checkpoints as they are stored, and the
target. -/
def givenPoints (range : MetricRange ℚ) (checkpoints : List (ControlPoint ℚ)) :
    List (ControlPoint ℚ) :=
  ⟨range.start, Percentage.zero⟩ :: (checkpoints ++ [⟨range.target, Percentage.hundred⟩])

theorem controlPoints_stablySorted (range : MetricRange ℚ) (checkpoints : List (ControlPoint ℚ)) :
    StablySorted ControlPoint.value (givenPoints range checkpoints)
      (controlPoints range checkpoints) :=
  stablySorted_sortBy _ _

theorem percent_of_ne_nil (nonempty : checkpoints ≠ []) :
    percent range checkpoints = alongCurve range.current (controlPoints range checkpoints) := by
  rw [percent, if_neg (by simpa using nonempty)]

/-- Checkpoints of distinct values give one curve in whatever order they are stored. -/
theorem controlPoints_of_perm (distinct : (checkpoints.map ControlPoint.value).Nodup)
    {checkpoints' : List (ControlPoint ℚ)} (perm : checkpoints'.Perm checkpoints) :
    controlPoints range checkpoints' = controlPoints range checkpoints := by
  have hsorted := controlPoints_stablySorted range checkpoints
  have hsorted' := controlPoints_stablySorted range checkpoints'
  refine eq_of_ordered_of_filter hsorted'.ordered hsorted.ordered fun k => ?_
  rw [hsorted'.stable, hsorted.stable, givenPoints, givenPoints, List.filter_cons, List.filter_cons,
    List.filter_append, List.filter_append, filter_eq_of_perm perm distinct]

/-- **The progress along the curve is the height of the polyline** through the start, the checkpoints
and the target, stably sorted by value.  Strictly between the lowest and the highest value the search
for a line succeeds.  The line leads from a point before the value to one that is not, so that the
length by which the position is divided is not zero.  The progress is the height of the polyline at the
value, rounded to the nearest integer, a half going up.  If no two checkpoints have one value, it does
not matter in which order they are stored. -/
theorem percent_eq_polyline {range : MetricRange ℚ} {checkpoints : List (ControlPoint ℚ)}
    (nonempty : checkpoints ≠ []) :
    (∀ points, StablySorted ControlPoint.value (givenPoints range checkpoints) points ↔
        points = controlPoints range checkpoints) ∧
      ((∃ p ∈ givenPoints range checkpoints, p.value < range.current) →
        (∃ q ∈ givenPoints range checkpoints, range.current < q.value) →
        (∃ before left right after,
          controlPoints range checkpoints = before ++ left :: right :: after ∧
          left.value < range.current ∧ range.current ≤ right.value ∧
          right.value - left.value ≠ 0 ∧
          heightAt? range.current (controlPoints range checkpoints) =
            some (interpolate left right range.current)) ∧
        (∃ height, OnPolyline (controlPoints range checkpoints) range.current height) ∧
        ∀ height, OnPolyline (controlPoints range checkpoints) range.current height →
          ((percent range checkpoints).value : ℤ) = ⌊height + 1 / 2⌋) ∧
      ((checkpoints.map ControlPoint.value).Nodup → ∀ checkpoints', checkpoints'.Perm checkpoints →
        percent range checkpoints' = percent range checkpoints) := by
  have hsorted := controlPoints_stablySorted range checkpoints
  refine ⟨fun points => ⟨fun h => h.unique hsorted, fun heq => heq ▸ hsorted⟩, ?_, ?_⟩
  · rintro ⟨p, hp, hlow⟩ ⟨q, hq, hhigh⟩
    rw [← hsorted.perm.mem_iff] at hp hq
    obtain ⟨before, left, right, after, heq, hbefore, hright, hheight⟩ :=
      exists_bracket_of_ordered hsorted.ordered ⟨p, hp, hlow⟩ ⟨q, hq, hhigh.le⟩
    have hleft : left.value < range.current := hbefore left (by simp)
    have hlength : 0 < right.value - left.value := sub_pos.2 (hleft.trans_le hright)
    refine ⟨⟨before, left, right, after, heq, hleft, hright, hlength.ne', ?_⟩,
      exists_onPolyline hsorted.ordered ⟨p, hp, hlow⟩ ⟨q, hq, hhigh.le⟩, ?_⟩
    · rw [hheight, interpolate_eq (hleft.trans_le hright)]
    · intro height hpolyline
      rw [percent_of_ne_nil nonempty]
      exact hpolyline.value_alongCurve hsorted.ordered ⟨p, hp, hlow⟩ ⟨q, hq, hhigh⟩
  · intro distinct checkpoints' perm
    have nonempty' : checkpoints' ≠ [] := by
      rintro rfl
      exact nonempty perm.nil_eq.symm
    rw [percent_of_ne_nil nonempty, percent_of_ne_nil nonempty', controlPoints_of_perm distinct perm]

/-- A metric that is to go down from 100 to 0, with two checkpoints, of which the first to be reached
is stored last: at 65 the polyline has the height 45, in whatever order the checkpoints are stored.
And two checkpoints at 50: there the first of them counts. -/
theorem percent_eq_polyline_downward :
    let range : MetricRange ℚ := ⟨100, 0, 65⟩
    let checkpoints : List (ControlPoint ℚ) := [⟨50, ⟨60, by decide⟩⟩, ⟨80, ⟨30, by decide⟩⟩]
    let steep : List (ControlPoint ℚ) := [⟨50, ⟨40, by decide⟩⟩, ⟨50, ⟨60, by decide⟩⟩]
    OnPolyline (controlPoints range checkpoints) 65 45 ∧
      ((percent range checkpoints).value : ℤ) = ⌊(45 : ℚ) + 1 / 2⌋ ∧
      percent range checkpoints.reverse = percent range checkpoints ∧
      OnPolyline (controlPoints ⟨0, 100, 50⟩ steep) 50 40 ∧
      ((percent ⟨0, 100, 50⟩ steep).value : ℤ) = ⌊(40 : ℚ) + 1 / 2⌋ := by
  intro range checkpoints steep
  obtain ⟨-, hbetween, hperm⟩ := @percent_eq_polyline range checkpoints (by simp [checkpoints])
  obtain ⟨-, hsteep, -⟩ := @percent_eq_polyline ⟨0, 100, 50⟩ steep (by simp [steep])
  have hline : OnPolyline (controlPoints range checkpoints) 65 45 := by
    have hpoints : controlPoints range checkpoints = [⟨0, Percentage.hundred⟩] ++
        ⟨50, ⟨60, by decide⟩⟩ :: ⟨80, ⟨30, by decide⟩⟩ :: [⟨100, Percentage.zero⟩] := by
      decide +kernel
    have hheight := OnPolyline.line hpoints (show (50 : ℚ) < 65 by norm_num) (by norm_num)
    norm_num [lineThrough] at hheight
    exact hheight
  have hpoint : OnPolyline (controlPoints ⟨0, 100, 50⟩ steep) 50 40 := by
    have hpoints : controlPoints ⟨0, 100, 50⟩ steep = [⟨0, Percentage.zero⟩] ++
        ⟨50, ⟨40, by decide⟩⟩ :: [⟨50, ⟨60, by decide⟩⟩, ⟨100, Percentage.hundred⟩] := by
      decide +kernel
    exact OnPolyline.point hpoints (by simp)
  refine ⟨hline, (hbetween ?_ ?_).2.2 _ hline, hperm ?_ _ (List.reverse_perm _), hpoint,
    (hsteep ?_ ?_).2.2 _ hpoint⟩
  · exact ⟨⟨0, Percentage.hundred⟩, by decide +kernel, by decide +kernel⟩
  · exact ⟨⟨100, Percentage.zero⟩, by decide +kernel, by decide +kernel⟩
  · decide +kernel
  · exact ⟨⟨0, Percentage.zero⟩, by decide +kernel, by decide +kernel⟩
  · exact ⟨⟨100, Percentage.hundred⟩, by decide +kernel, by decide +kernel⟩

end Percent

end Progress

end Objectives
