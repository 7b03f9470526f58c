/- # Curves that rise

A metric that gets better should not lose progress.  Along a curve whose points rise from one to the
next this is so: a line leads up, a jump between points of one value leads up as well, and from one line
to a later one the height passes through the points between.

Main definitions:

* `Progress.Rising` — the percents along some points never decrease.

Main results:

* `Progress.Rising.le_heightAt?` — what is found from a point on is no lower than the point;
* `Progress.Rising.heightAt?_mono` — the height that is found rises with the value;
* `Progress.percent_monotone` — **the progress along a rising curve never decreases**.
-/

import Objectives.Proofs.Curve

set_option relaxedAutoImplicit false
set_option autoImplicit false

namespace Objectives

/-- The percentage of a greater number is no smaller. -/
theorem Percentage.ofMetric_mono {x y : ℚ} (h : x ≤ y) :
    (ofMetric x).value ≤ (ofMetric y).value := by
  rcases le_or_gt x 0 with hx | hx
  · have hzero : ofMetric x = zero := if_neg (by simpa using hx)
    rw [hzero]
    exact Nat.zero_le _
  rcases le_or_gt 100 y with hy | hy
  · have hhundred : ofMetric y = hundred := by
      rw [ofMetric, if_pos (by simpa using hx.trans_le h), if_pos (by simpa using hy)]
    rw [hhundred]
    exact (ofMetric x).le_hundred
  · have hvalues := Int.floor_le_floor (add_le_add_left h (1 / 2))
    rw [← value_ofMetric hx.le (h.trans hy.le), ← value_ofMetric (hx.le.trans h) hy.le] at hvalues
    exact_mod_cast hvalues

namespace Progress

variable {a b first : ControlPoint ℚ} {points rest : List (ControlPoint ℚ)} {c₁ c₂ value height : ℚ}
  {range : MetricRange ℚ} {checkpoints : List (ControlPoint ℚ)}

/-! ### Lines -/

/-- At the first point the line has the height of that. -/
theorem lineThrough_left : lineThrough a b a.value = a.percent.value := by
  rw [lineThrough, sub_self, mul_zero, add_zero]

/-- A line to a point that is no lower leads up. -/
theorem lineThrough_mono (hvalues : a.value < b.value) (hpercents : a.percent.value ≤ b.percent.value)
    (h : c₁ ≤ c₂) : lineThrough a b c₁ ≤ lineThrough a b c₂ := by
  have hrise : (0 : ℚ) ≤ b.percent.value - a.percent.value :=
    sub_nonneg.2 (by exact_mod_cast hpercents)
  have hslope := div_nonneg hrise (sub_pos.2 hvalues).le
  have hstep := mul_le_mul_of_nonneg_left (sub_le_sub_right h a.value) hslope
  rw [lineThrough, lineThrough]
  exact add_le_add_right hstep _

/-- Between two points, or at their common value, the program stays between nothing and all. -/
theorem interpolate_mem (ha : a.value ≤ value) (hb : value ≤ b.value) :
    0 ≤ interpolate a b value ∧ interpolate a b value ≤ 100 := by
  rcases (ha.trans hb).eq_or_lt with hsame | hlt
  · have hlow : interpolate a b value = a.percent.value := if_pos (by simp [hsame])
    exact hlow ▸ percent_mem a
  · rw [interpolate_eq hlt]
    rcases ha.eq_or_lt with rfl | hpast
    · exact lineThrough_left ▸ percent_mem a
    · exact lineThrough_mem hpast hb

/-- What the search finds is between nothing and all. -/
theorem heightAt?_mem (h : heightAt? value points = some height) : 0 ≤ height ∧ height ≤ 100 := by
  fun_induction heightAt? value points with
  | case1 left right rest hover =>
    cases h
    rw [Bool.and_eq_true] at hover
    exact interpolate_mem (of_decide_eq_true hover.1) (of_decide_eq_true hover.2)
  | case2 left right rest hover ih => exact ih h
  | case3 => cases h

/-! ### Points that rise -/

/-- The percents along the points never decrease. -/
def Rising (points : List (ControlPoint ℚ)) : Prop :=
  points.Pairwise fun p q => p.percent.value ≤ q.percent.value

namespace Rising

/-- Of rising points in order, one of a greater value has no smaller percent. -/
theorem percent_le (h : Rising points) (ordered : points.Pairwise fun p q => p.value ≤ q.value)
    (ha : a ∈ points) (hb : b ∈ points) (hlt : a.value < b.value) :
    a.percent.value ≤ b.percent.value := by
  obtain ⟨before, after, rfl⟩ := List.append_of_mem ha
  obtain ⟨-, hordered, hearlier⟩ := List.pairwise_append.1 ordered
  obtain ⟨-, hrising, -⟩ := List.pairwise_append.1 h
  rcases List.mem_append.1 hb with hb | hb
  · -- a point that stands earlier is not greater
    exact absurd (hearlier b hb a (List.mem_cons_self ..)) (not_le.2 hlt)
  · rcases List.mem_cons.1 hb with rfl | hb
    · exact le_rfl
    · exact (List.pairwise_cons.1 hrising).1 b hb

/-- What is found from a point on is no lower than the point. -/
theorem le_heightAt? (h : Rising (first :: rest)) (hfirst : first.value < value)
    (hheight : heightAt? value (first :: rest) = some height) :
    (first.percent.value : ℚ) ≤ height := by
  induction rest generalizing first with
  | nil => cases hheight
  | cons second rest ih =>
    obtain ⟨hlow, hrest⟩ := List.pairwise_cons.1 h
    have hstep : first.percent.value ≤ second.percent.value := hlow second (List.mem_cons_self ..)
    rw [heightAt?_cons_cons hfirst] at hheight
    split at hheight
    case isTrue hsecond =>
      cases hheight
      rw [← lineThrough_left (a := first) (b := second)]
      exact lineThrough_mono (hfirst.trans_le hsecond) hstep hfirst.le
    case isFalse hsecond =>
      have hfound := ih hrest (not_le.1 hsecond) hheight
      exact le_trans (by exact_mod_cast hstep) hfound

/-- **The height that is found rises with the value.** -/
theorem heightAt?_mono {height₁ height₂ : ℚ} (h : Rising (first :: rest)) (hfirst : first.value < c₁)
    (hle : c₁ ≤ c₂) (h₁ : heightAt? c₁ (first :: rest) = some height₁)
    (h₂ : heightAt? c₂ (first :: rest) = some height₂) : height₁ ≤ height₂ := by
  induction rest generalizing first with
  | nil => cases h₁
  | cons second rest ih =>
    obtain ⟨hlow, hrest⟩ := List.pairwise_cons.1 h
    have hstep : first.percent.value ≤ second.percent.value := hlow second (List.mem_cons_self ..)
    rw [heightAt?_cons_cons hfirst] at h₁
    rw [heightAt?_cons_cons (hfirst.trans_le hle)] at h₂
    split at h₁
    case isTrue hsecond =>
      cases h₁
      have hlength : first.value < second.value := hfirst.trans_le hsecond
      split at h₂
      case isTrue =>
        cases h₂
        exact lineThrough_mono hlength hstep hle
      case isFalse hpast =>
        -- the second point lies between the two values, and its percent between the two heights
        have hbefore := lineThrough_mono hlength hstep hsecond
        rw [lineThrough_right hlength] at hbefore
        exact hbefore.trans (le_heightAt? hrest (not_le.1 hpast) h₂)
    case isFalse hsecond =>
      rw [if_neg fun hpast => hsecond (hle.trans hpast)] at h₂
      exact ih hrest (not_le.1 hsecond) h₁ h₂

/-- The progress along rising points never decreases. -/
theorem alongCurve_mono (h : Rising points) (ordered : points.Pairwise fun p q => p.value ≤ q.value)
    (hle : c₁ ≤ c₂) : (alongCurve c₁ points).value ≤ (alongCurve c₂ points).value := by
  by_cases hlow : ∀ p ∈ points, c₁ ≤ p.value
  · rw [alongCurve_low hlow]
    exact Nat.zero_le _
  push Not at hlow
  obtain ⟨p, hp, hpast⟩ := hlow
  by_cases hhigh : ∀ q ∈ points, q.value ≤ c₂
  · rw [alongCurve_high ordered ⟨p, hp, hpast.trans_le hle⟩ hhigh]
    exact (alongCurve c₁ points).le_hundred
  push Not at hhigh
  obtain ⟨q, hq, hbefore⟩ := hhigh
  -- both values lie strictly between the first and the last point
  have hbetween {c : ℚ} (h₁ : c₁ ≤ c) (h₂ : c ≤ c₂) : ∃ height, heightAt? c points = some height ∧
      alongCurve c points = Percentage.ofMetric height := by
    have hleft : ∃ p ∈ points, p.value < c := ⟨p, hp, hpast.trans_le h₁⟩
    have hright : ∃ q ∈ points, c < q.value := ⟨q, hq, h₂.trans_lt hbefore⟩
    obtain ⟨_, left, right, _, -, -, -, hheight⟩ :=
      exists_bracket_of_ordered ordered hleft ⟨q, hq, (h₂.trans_lt hbefore).le⟩
    exact ⟨_, hheight, alongCurve_between ordered hleft hright hheight⟩
  obtain ⟨height₁, hheight₁, hcurve₁⟩ := hbetween le_rfl hle
  obtain ⟨height₂, hheight₂, hcurve₂⟩ := hbetween hle le_rfl
  rw [hcurve₁, hcurve₂]
  apply Percentage.ofMetric_mono
  cases points with
  | nil => cases hp
  | cons first rest =>
    exact h.heightAt?_mono (head_lt ordered ⟨p, hp, hpast⟩) hle hheight₁ hheight₂

end Rising

/-! ### The progress of a percent key result -/

/-- On the straight way from the start to a target that is not below it, progress never decreases. -/
theorem linear_mono (h : range.start ≤ range.target) (hle : c₁ ≤ c₂) :
    (linear { range with current := c₁ }).value ≤ (linear { range with current := c₂ }).value := by
  apply Percentage.ofMetric_mono
  simp only [linearShare, Metric.equal_rat, Metric.mul_rat, Metric.div_rat, Metric.sub_rat,
    Metric.ofNat_rat]
  split
  · exact le_rfl
  · have hpart := div_le_div_of_nonneg_right (sub_le_sub_right hle range.start) (sub_nonneg.2 h)
    exact mul_le_mul_of_nonneg_right hpart (Nat.cast_nonneg _)

/-- **The progress along a rising curve never decreases**: with a greater value of the metric it is no
smaller, whichever lines or jumps lie between the two values, and also before the first point and after
the last.  It is a percentage, and no height along the curve has to be cut to be one. -/
theorem percent_monotone {range : MetricRange ℚ} {checkpoints points : List (ControlPoint ℚ)}
    (sorted : StablySorted ControlPoint.value (givenPoints range checkpoints) points)
    (rising : Rising points) :
    (∀ c₁ c₂, c₁ ≤ c₂ → (percent { range with current := c₁ } checkpoints).value ≤
        (percent { range with current := c₂ } checkpoints).value) ∧
      ∀ c, (percent { range with current := c } checkpoints).value ≤ 100 ∧
        ∀ height, heightAt? c points = some height → 0 ≤ height ∧ height ≤ 100 := by
  refine ⟨fun c₁ c₂ hle => ?_, fun c => ⟨Percentage.le_hundred _, fun _ => heightAt?_mem⟩⟩
  by_cases hnone : checkpoints = []
  · -- without checkpoints the two points rise only if the target is not below the start
    subst hnone
    refine linear_mono (le_of_not_gt fun hbelow => ?_) hle
    have hstart : ⟨range.start, Percentage.zero⟩ ∈ points := by
      simp [sorted.perm.mem_iff, givenPoints]
    have htarget : ⟨range.target, Percentage.hundred⟩ ∈ points := by
      simp [sorted.perm.mem_iff, givenPoints]
    exact absurd (rising.percent_le sorted.ordered htarget hstart hbelow) (by decide : ¬(100 ≤ 0))
  · have hpoints (c : ℚ) : controlPoints { range with current := c } checkpoints = points :=
      (controlPoints_stablySorted { range with current := c } checkpoints).unique sorted
    rw [percent_of_ne_nil hnone, percent_of_ne_nil hnone, hpoints, hpoints]
    exact rising.alongCurve_mono sorted.ordered hle

/-- Two checkpoints at 50, one before the start and one past the target: up to 50 the curve leads to 40
percent, and right after it the progress is past 60 percent. -/
theorem percent_monotone_jump :
    let range : MetricRange ℚ := ⟨0, 100, 0⟩
    let checkpoints : List (ControlPoint ℚ) :=
      [⟨120, Percentage.hundred⟩, ⟨50, ⟨40, by decide⟩⟩, ⟨-10, Percentage.zero⟩, ⟨50, ⟨60, by decide⟩⟩]
    let points : List (ControlPoint ℚ) :=
      [⟨-10, Percentage.zero⟩, ⟨0, Percentage.zero⟩, ⟨50, ⟨40, by decide⟩⟩, ⟨50, ⟨60, by decide⟩⟩,
        ⟨100, Percentage.hundred⟩, ⟨120, Percentage.hundred⟩]
    StablySorted ControlPoint.value (givenPoints range checkpoints) points ∧ Rising points ∧
      (percent { range with current := 50 } checkpoints).value = 40 ∧
      (percent { range with current := 51 } checkpoints).value = 61 ∧
      (percent { range with current := 50 } checkpoints).value ≤
        (percent { range with current := 51 } checkpoints).value := by
  intro range checkpoints points
  have hpoints : controlPoints range checkpoints = points := by decide +kernel
  have hsorted : StablySorted ControlPoint.value (givenPoints range checkpoints) points :=
    hpoints ▸ controlPoints_stablySorted range checkpoints
  have hrising : Rising points := by
    simp only [Rising, points, Percentage.zero, Percentage.hundred]
    decide
  exact ⟨hsorted, hrising, by decide +kernel, by decide +kernel,
    (percent_monotone hsorted hrising).1 50 51 (by norm_num)⟩

end Progress

end Objectives
