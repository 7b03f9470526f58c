/- # Metrics that go down

A metric may be to go down instead of up, which is the same as to let its opposite go up.  Linear
progress makes no difference between the two.  The curve through checkpoints makes none between its two
ends; but to the lower end itself, and to all below it, the program gives no progress, and to the upper
end all, although it is the lower end where a metric that goes down has its target.

Main definitions:

* `MetricRange.opposite`, `ControlPoint.opposite` — a metric and a checkpoint seen upside down;
* `Progress.Inside` — checkpoints of distinct values between the start and the target.

Main results:

* `Progress.linear_opposite` — linear progress is the same upside down;
* `Progress.OnPolyline.opposite` — so is the polyline, if no two of its points have one value;
* `Progress.Inside.percent_of_le`, `Progress.Inside.percent_of_ge` — the progress at the lower and the
  upper end, whatever the direction;
* `Progress.Inside.percent_opposite_iff` — between the ends it is the same upside down, and nowhere else;
* `Progress.percent_opposite` — **the progress at the start, at the target and upside down**;
* `Progress.percent_downward` — a metric that goes down has no progress at its target.
-/

import Mathlib.Data.List.Nodup
import Mathlib.Algebra.Order.Group.MinMax
import Objectives.Proofs.Curve

set_option relaxedAutoImplicit false
set_option autoImplicit false

namespace Objectives

/-- The metric with all its values negated. -/
def MetricRange.opposite (range : MetricRange ℚ) : MetricRange ℚ :=
  ⟨-range.start, -range.target, -range.current⟩

namespace MetricRange

theorem min_opposite (range : MetricRange ℚ) :
    min range.opposite.start range.opposite.target = -max range.start range.target :=
  min_neg_neg _ _

theorem max_opposite (range : MetricRange ℚ) :
    max range.opposite.start range.opposite.target = -min range.start range.target :=
  max_neg_neg _ _

end MetricRange

/-- The point with its value negated. -/
def ControlPoint.opposite (p : ControlPoint ℚ) : ControlPoint ℚ := ⟨-p.value, p.percent⟩

namespace Progress

variable {range : MetricRange ℚ} {checkpoints points : List (ControlPoint ℚ)} {value height : ℚ}

/-! ### Linear progress -/

/-- Linear progress is the same upside down. -/
theorem linear_opposite (range : MetricRange ℚ) : linear range.opposite = linear range := by
  have hshare : linearShare range.opposite = linearShare range := by
    simp only [linearShare, MetricRange.opposite, Metric.equal_rat, Metric.sub_rat, Metric.div_rat,
      Metric.mul_rat, neg_inj, neg_sub_neg]
    rw [← neg_sub range.current, ← neg_sub range.target, neg_div_neg_eq]
  rw [linear, linear, hshare]

/-- At the start nothing is done. -/
theorem linear_start (h : range.current = range.start) : linear range = Percentage.zero := by
  have hshare : linearShare range = 0 := by
    simp [linearShare, h]
  rw [linear, hshare]
  rfl

/-- At the target all is done. -/
theorem linear_target (apart : range.start ≠ range.target) (h : range.current = range.target) :
    linear range = Percentage.hundred := by
  have hlength : range.target - range.start ≠ 0 := sub_ne_zero.2 apart.symm
  have hshare : linearShare range = 100 := by
    simp [linearShare, h, apart, hlength]
  rw [linear, hshare]
  rfl

/-! ### The polyline -/

/-- The line through two points is the same upside down. -/
theorem lineThrough_opposite {a b : ControlPoint ℚ} (h : a.value ≠ b.value) :
    lineThrough b.opposite a.opposite (-value) = lineThrough a b value := by
  have hlength : b.value - a.value ≠ 0 := sub_ne_zero.2 h.symm
  simp only [lineThrough, ControlPoint.opposite, neg_sub_neg]
  field_simp
  ring

/-- The polyline is the same upside down, if no two of its points have one value. -/
theorem OnPolyline.opposite (h : OnPolyline points value height)
    (distinct : (points.map ControlPoint.value).Nodup) :
    OnPolyline (points.map ControlPoint.opposite).reverse (-value) height := by
  cases h with
  | @point before after p heq _ =>
    have hsplit : (points.map ControlPoint.opposite).reverse =
        (after.map ControlPoint.opposite).reverse ++
          p.opposite :: (before.map ControlPoint.opposite).reverse := by
      simp [heq]
    refine .point hsplit fun q hq => ?_
    -- the points that come first upside down are those behind
    rw [List.mem_reverse, List.mem_map] at hq
    obtain ⟨q, hq, rfl⟩ := hq
    rw [heq, List.map_append, List.map_cons, List.nodup_append', List.nodup_cons] at distinct
    intro hvalue
    exact distinct.2.1.1 (neg_inj.1 hvalue ▸ List.mem_map_of_mem hq)
  | @line before after a b _ heq ha hb =>
    have hsplit : (points.map ControlPoint.opposite).reverse =
        (after.map ControlPoint.opposite).reverse ++
          b.opposite :: a.opposite :: (before.map ControlPoint.opposite).reverse := by
      simp [heq]
    rw [← lineThrough_opposite (ha.trans hb).ne]
    exact .line hsplit (neg_lt_neg hb) (neg_lt_neg ha)

/-! ### Checkpoints between the start and the target -/

/-- The start and the target differ, and the checkpoints have distinct values strictly between them. -/
structure Inside (range : MetricRange ℚ) (checkpoints : List (ControlPoint ℚ)) : Prop where
  apart : range.start ≠ range.target
  distinct : (checkpoints.map ControlPoint.value).Nodup
  between : ∀ c ∈ checkpoints,
    min range.start range.target < c.value ∧ c.value < max range.start range.target

theorem givenPoints_opposite (range : MetricRange ℚ) (checkpoints : List (ControlPoint ℚ)) :
    givenPoints range.opposite (checkpoints.map ControlPoint.opposite) =
      (givenPoints range checkpoints).map ControlPoint.opposite := by
  simp [givenPoints, MetricRange.opposite, ControlPoint.opposite]

namespace Inside

variable (h : Inside range checkpoints)
include h

/-- A checkpoint stands neither at the start nor at the target. -/
theorem value_ne {c : ControlPoint ℚ} (hc : c ∈ checkpoints) :
    c.value ≠ range.start ∧ c.value ≠ range.target := by
  obtain ⟨hlow, hhigh⟩ := h.between c hc
  rcases h.apart.lt_or_gt with hup | hdown
  · rw [min_eq_left hup.le] at hlow
    rw [max_eq_right hup.le] at hhigh
    exact ⟨hlow.ne', hhigh.ne⟩
  · rw [min_eq_right hdown.le] at hlow
    rw [max_eq_left hdown.le] at hhigh
    exact ⟨hhigh.ne, hlow.ne'⟩

/-- No two points of the curve have one value. -/
theorem nodup_givenPoints : ((givenPoints range checkpoints).map ControlPoint.value).Nodup := by
  rw [givenPoints, List.map_cons, List.map_append, List.map_singleton, List.nodup_cons,
    List.nodup_append', List.mem_append, List.mem_singleton]
  refine ⟨?_, h.distinct, List.nodup_singleton _, ?_⟩
  · rintro (hstart | hstart)
    · obtain ⟨c, hc, hvalue⟩ := List.mem_map.1 hstart
      exact (h.value_ne hc).1 hvalue
    · exact h.apart hstart
  · intro value hvalue htarget
    obtain ⟨c, hc, rfl⟩ := List.mem_map.1 hvalue
    exact (h.value_ne hc).2 (List.mem_singleton.1 htarget)

/-- All points lie between the start and the target. -/
theorem mem_givenPoints : ∀ p ∈ givenPoints range checkpoints,
    min range.start range.target ≤ p.value ∧ p.value ≤ max range.start range.target := by
  intro p hp
  rw [givenPoints, List.mem_cons, List.mem_append, List.mem_singleton] at hp
  rcases hp with rfl | hp | rfl
  · exact ⟨min_le_left _ _, le_max_left _ _⟩
  · exact ⟨(h.between p hp).1.le, (h.between p hp).2.le⟩
  · exact ⟨min_le_right _ _, le_max_right _ _⟩

omit h in
/-- The start and the target are points themselves. -/
theorem exists_ends : (∃ p ∈ givenPoints range checkpoints, p.value = min range.start range.target) ∧
    ∃ q ∈ givenPoints range checkpoints, q.value = max range.start range.target := by
  have hstart : (⟨range.start, Percentage.zero⟩ : ControlPoint ℚ) ∈ givenPoints range checkpoints :=
    List.mem_cons_self ..
  have htarget :
      (⟨range.target, Percentage.hundred⟩ : ControlPoint ℚ) ∈ givenPoints range checkpoints := by
    simp [givenPoints]
  rcases le_total range.start range.target with hle | hle
  · rw [min_eq_left hle, max_eq_right hle]
    exact ⟨⟨_, hstart, rfl⟩, ⟨_, htarget, rfl⟩⟩
  · rw [min_eq_right hle, max_eq_left hle]
    exact ⟨⟨_, htarget, rfl⟩, ⟨_, hstart, rfl⟩⟩

theorem opposite : Inside range.opposite (checkpoints.map ControlPoint.opposite) where
  apart := fun heq => h.apart (neg_inj.1 heq)
  distinct := by
    have hvalues : (checkpoints.map ControlPoint.opposite).map ControlPoint.value =
        (checkpoints.map ControlPoint.value).map Neg.neg := by
      simp [ControlPoint.opposite]
    rw [hvalues]
    exact h.distinct.map neg_injective
  between := by
    intro _ hmem
    obtain ⟨c, hc, rfl⟩ := List.mem_map.1 hmem
    obtain ⟨hlow, hhigh⟩ := h.between c hc
    rw [MetricRange.min_opposite, MetricRange.max_opposite]
    exact ⟨neg_lt_neg hhigh, neg_lt_neg hlow⟩

/-- The points of the curve stand the other way round upside down. -/
theorem controlPoints_opposite :
    controlPoints range.opposite (checkpoints.map ControlPoint.opposite) =
      ((controlPoints range checkpoints).map ControlPoint.opposite).reverse := by
  have hsorted := controlPoints_stablySorted range checkpoints
  have hsorted' :=
    controlPoints_stablySorted range.opposite (checkpoints.map ControlPoint.opposite)
  have hperm : ((controlPoints range checkpoints).map ControlPoint.opposite).reverse.Perm
      (givenPoints range.opposite (checkpoints.map ControlPoint.opposite)) := by
    rw [givenPoints_opposite]
    exact (List.reverse_perm _).trans (hsorted.perm.map _)
  refine eq_of_ordered_of_filter hsorted'.ordered ?_ fun k => ?_
  · rw [List.pairwise_reverse, List.pairwise_map]
    exact hsorted.ordered.imp fun hle => neg_le_neg hle
  · rw [hsorted'.stable, filter_eq_of_perm hperm h.opposite.nodup_givenPoints]

/-! ### Progress -/

/-- Up to the lower end there is no progress. -/
theorem percent_of_le (nonempty : checkpoints ≠ [])
    (hle : range.current ≤ min range.start range.target) :
    percent range checkpoints = Percentage.zero := by
  rw [percent_of_ne_nil nonempty]
  refine alongCurve_low fun p hp => ?_
  rw [(controlPoints_stablySorted range checkpoints).perm.mem_iff] at hp
  exact hle.trans (h.mem_givenPoints p hp).1

/-- From the upper end on all is done. -/
theorem percent_of_ge (nonempty : checkpoints ≠ [])
    (hge : max range.start range.target ≤ range.current) :
    percent range checkpoints = Percentage.hundred := by
  have hsorted := controlPoints_stablySorted range checkpoints
  rw [percent_of_ne_nil nonempty]
  refine alongCurve_high hsorted.ordered ?_ fun p hp => ?_
  · obtain ⟨⟨p, hp, hvalue⟩, -⟩ := @exists_ends range checkpoints
    refine ⟨p, hsorted.perm.mem_iff.2 hp, ?_⟩
    rw [hvalue]
    exact (min_lt_max.2 h.apart).trans_le hge
  · rw [hsorted.perm.mem_iff] at hp
    exact ((h.mem_givenPoints p hp).2).trans hge

/-- Between the ends the progress is the same upside down. -/
theorem percent_opposite_of_between (nonempty : checkpoints ≠ [])
    (hlow : min range.start range.target < range.current)
    (hhigh : range.current < max range.start range.target) :
    percent range.opposite (checkpoints.map ControlPoint.opposite) = percent range checkpoints := by
  have hsorted := controlPoints_stablySorted range checkpoints
  have hsorted' :=
    controlPoints_stablySorted range.opposite (checkpoints.map ControlPoint.opposite)
  obtain ⟨⟨p, hp, hpvalue⟩, ⟨q, hq, hqvalue⟩⟩ := @exists_ends range checkpoints
  rw [← hsorted.perm.mem_iff] at hp hq
  rw [← hpvalue] at hlow
  rw [← hqvalue] at hhigh
  obtain ⟨height, hpolyline⟩ :=
    exists_onPolyline hsorted.ordered ⟨p, hp, hlow⟩ ⟨q, hq, hhigh.le⟩
  have distinct : ((controlPoints range checkpoints).map ControlPoint.value).Nodup :=
    (hsorted.perm.map _).nodup_iff.2 h.nodup_givenPoints
  have hpolyline' := hpolyline.opposite distinct
  have hvalue := hpolyline.value_alongCurve hsorted.ordered ⟨p, hp, hlow⟩ ⟨q, hq, hhigh⟩
  rw [← h.controlPoints_opposite] at hpolyline'
  have hvalue' : ((alongCurve range.opposite.current (controlPoints range.opposite
      (checkpoints.map ControlPoint.opposite))).value : ℤ) = ⌊height + 1 / 2⌋ := by
    refine hpolyline'.value_alongCurve hsorted'.ordered ⟨q.opposite, ?_, neg_lt_neg hhigh⟩
      ⟨p.opposite, ?_, neg_lt_neg hlow⟩
    · rw [h.controlPoints_opposite, List.mem_reverse]
      exact List.mem_map_of_mem hq
    · rw [h.controlPoints_opposite, List.mem_reverse]
      exact List.mem_map_of_mem hp
  have nonempty' : checkpoints.map ControlPoint.opposite ≠ [] := by simpa using nonempty
  rw [percent_of_ne_nil nonempty, percent_of_ne_nil nonempty']
  exact Percentage.ext (Int.ofNat.inj (hvalue'.trans hvalue.symm))

/-- A metric that goes up has no progress at its start and all at its target. -/
theorem percent_ends_up (nonempty : checkpoints ≠ []) (hup : range.start < range.target) :
    (range.current = range.start → percent range checkpoints = Percentage.zero) ∧
      (range.current = range.target → percent range checkpoints = Percentage.hundred) := by
  constructor
  · intro hstart
    exact h.percent_of_le nonempty (by rw [min_eq_left hup.le, hstart])
  · intro htarget
    exact h.percent_of_ge nonempty (by rw [max_eq_right hup.le, htarget])

/-- With a metric that goes down it is the other way round. -/
theorem percent_ends_down (nonempty : checkpoints ≠ []) (hdown : range.target < range.start) :
    (range.current = range.start → percent range checkpoints = Percentage.hundred) ∧
      (range.current = range.target → percent range checkpoints = Percentage.zero) := by
  constructor
  · intro hstart
    exact h.percent_of_ge nonempty (by rw [max_eq_left hdown.le, hstart])
  · intro htarget
    exact h.percent_of_le nonempty (by rw [min_eq_right hdown.le, htarget])

/-- With checkpoints the progress is the same upside down between the ends and nowhere else: at an end
and beyond it, one of the two is nothing and the other all. -/
theorem percent_opposite_iff (nonempty : checkpoints ≠ []) :
    percent range.opposite (checkpoints.map ControlPoint.opposite) = percent range checkpoints ↔
      min range.start range.target < range.current ∧
        range.current < max range.start range.target := by
  have nonempty' : checkpoints.map ControlPoint.opposite ≠ [] := by simpa using nonempty
  have hne : Percentage.zero ≠ Percentage.hundred := by decide
  constructor
  · intro heq
    constructor
    · by_contra hlow
      have hge : max range.opposite.start range.opposite.target ≤ range.opposite.current := by
        rw [MetricRange.max_opposite]
        exact neg_le_neg (not_lt.1 hlow)
      rw [h.percent_of_le nonempty (not_lt.1 hlow), h.opposite.percent_of_ge nonempty' hge] at heq
      exact hne heq.symm
    · by_contra hhigh
      have hle : range.opposite.current ≤ min range.opposite.start range.opposite.target := by
        rw [MetricRange.min_opposite]
        exact neg_le_neg (not_lt.1 hhigh)
      rw [h.percent_of_ge nonempty (not_lt.1 hhigh), h.opposite.percent_of_le nonempty' hle] at heq
      exact hne heq
  · rintro ⟨hlow, hhigh⟩
    exact h.percent_opposite_of_between nonempty hlow hhigh

end Inside

/-- **The progress at the start, at the target and upside down**, with checkpoints of distinct values
between the start and the target.  Linear progress, which is that without checkpoints, is nothing at the
start, all at the target, and the same upside down.  With checkpoints this is so at the ends if the
metric goes up, and upside down if the present value is strictly between the ends.  If the metric goes
down the ends are exchanged, and so they are upside down. -/
theorem percent_opposite (h : Inside range checkpoints) :
    linear range.opposite = linear range ∧
      (checkpoints = [] ∨ range.start < range.target →
        (range.current = range.start → percent range checkpoints = Percentage.zero) ∧
        (range.current = range.target → percent range checkpoints = Percentage.hundred)) ∧
      (checkpoints ≠ [] → range.target < range.start →
        (range.current = range.start → percent range checkpoints = Percentage.hundred) ∧
        (range.current = range.target → percent range checkpoints = Percentage.zero)) ∧
      (percent range.opposite (checkpoints.map ControlPoint.opposite) = percent range checkpoints ↔
        checkpoints = [] ∨ (min range.start range.target < range.current ∧
          range.current < max range.start range.target)) := by
  refine ⟨linear_opposite range, ?_, h.percent_ends_down, ?_⟩
  · intro hcase
    by_cases hempty : checkpoints = []
    · rw [hempty]
      exact ⟨linear_start, linear_target h.apart⟩
    · exact h.percent_ends_up hempty (hcase.resolve_left hempty)
  · by_cases hempty : checkpoints = []
    · rw [hempty]
      exact ⟨fun _ => .inl rfl, fun _ => linear_opposite range⟩
    · rw [h.percent_opposite_iff hempty]
      exact ⟨.inr, fun hcase => hcase.resolve_left hempty⟩

/-- A metric that is to go down from 100 to 0, with two checkpoints: at 60 its progress is the same
upside down, and at the ends it is exchanged. -/
theorem percent_opposite_downward :
    let range : ℚ → MetricRange ℚ := fun current => ⟨100, 0, current⟩
    let checkpoints : List (ControlPoint ℚ) := [⟨80, ⟨30, by decide⟩⟩, ⟨50, ⟨60, by decide⟩⟩]
    (∀ current, Inside (range current) checkpoints) ∧
      percent (range 60).opposite (checkpoints.map ControlPoint.opposite) =
        percent (range 60) checkpoints ∧
      percent (range 60) checkpoints = ⟨50, by decide⟩ ∧
      percent (range 100) checkpoints = Percentage.hundred ∧
      percent (range 0) checkpoints = Percentage.zero := by
  intro range checkpoints
  have inside : ∀ current, Inside (range current) checkpoints := fun current =>
    { apart := by norm_num [range]
      distinct := by norm_num [checkpoints]
      between := by norm_num [range, checkpoints] }
  have nonempty : checkpoints ≠ [] := List.cons_ne_nil _ _
  have hdown : ∀ current, (range current).target < (range current).start := by
    norm_num [range]
  obtain ⟨-, -, -, hopposite⟩ := percent_opposite (inside 60)
  obtain ⟨-, -, hstart, -⟩ := percent_opposite (inside 100)
  obtain ⟨-, -, htarget, -⟩ := percent_opposite (inside 0)
  refine ⟨inside, hopposite.2 (.inr ?_), by decide +kernel, (hstart nonempty (hdown _)).1 rfl,
    (htarget nonempty (hdown _)).2 rfl⟩
  norm_num [range]

/-- **A metric that goes down has no progress at its target**, and all at its start, if it has a
checkpoint; without one, and upside down, it is the other way round. -/
theorem percent_downward :
    let range : ℚ → MetricRange ℚ := fun current => ⟨100, 0, current⟩
    let checkpoints : List (ControlPoint ℚ) := [⟨50, ⟨50, by decide⟩⟩]
    (∀ current, Inside (range current) checkpoints) ∧
      percent (range 100) checkpoints = Percentage.hundred ∧
      percent (range 0) checkpoints = Percentage.zero ∧
      linear (range 100) = Percentage.zero ∧ linear (range 0) = Percentage.hundred ∧
      percent (range 100).opposite (checkpoints.map ControlPoint.opposite) = Percentage.zero ∧
      percent (range 0).opposite (checkpoints.map ControlPoint.opposite) = Percentage.hundred := by
  intro range checkpoints
  have inside : ∀ current, Inside (range current) checkpoints := fun current =>
    { apart := by norm_num [range]
      distinct := by norm_num [checkpoints]
      between := by norm_num [range, checkpoints] }
  exact ⟨inside, by decide +kernel, by decide +kernel, by decide +kernel, by decide +kernel,
    by decide +kernel, by decide +kernel⟩

end Progress

end Objectives
