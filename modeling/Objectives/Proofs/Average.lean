/- # Averages of progress

The progress of a goal is the average of that of its key results by their weights, rounded, and the
progress of a team is the average of that of its goals by the weights they have for the team, rounded
once more.  With the division taken exactly, an average is fixed by two sums, the weighted sum of the
progress and the sum of the weights.  So it is no lower where the weights sum up to the same and the
weighted sum is no smaller, and rounding keeps that.

Main definitions:

* `Progress.weightedMean`, `Progress.weighing` — the weighted mean, and the items that have a weight;
* `Progress.Averages` — what can be relied on in averages;
* `Memory.goalProgressIn`, `Memory.rowProgressIn` — the progress of a goal and of a team, divided in
  given numbers;
* `Memory.withMeasurement` — a store with another measurement of one key result.

Main results:

* `Progress.averageIn_mono` — an average rises with the weighted sum;
* `Progress.averages_rat` — exact averages can be relied on;
* `Memory.progress_rises` — **averages can be relied on, and a key result that makes progress takes
  neither its goal nor any team back**.
-/

import Mathlib.Algebra.BigOperators.Group.List.Basic
import Mathlib.Algebra.Order.BigOperators.Group.List
import Mathlib.Data.Rat.Cast.Order
import Objectives.Proofs.Freeze
import Objectives.Proofs.Rising
import Objectives.Proofs.Views

set_option relaxedAutoImplicit false
set_option autoImplicit false

namespace Objectives

namespace Progress

variable {items items' : List (Percentage × Weight)}

/-! ### Sums and means -/

/-- The weighted mean of the progress of a group. -/
def weightedMean (items : List (Percentage × Weight)) : ℚ :=
  (items.map fun item => (item.1.value * item.2.value : ℚ)).sum /
    (items.map fun item => (item.2.value : ℚ)).sum

/-- The items that have a weight. -/
def weighing (items : List (Percentage × Weight)) : List (Percentage × Weight) :=
  items.filter fun item => 0 < item.2.value

theorem totalWeight_cons (item : Percentage × Weight) (items : List (Percentage × Weight)) :
    totalWeight (item :: items) = item.2.value + totalWeight items := rfl

theorem weightedSum_cons (item : Percentage × Weight) (items : List (Percentage × Weight)) :
    weightedSum (item :: items) = item.1.value * item.2.value + weightedSum items := rfl

theorem weightedMean_eq (items : List (Percentage × Weight)) :
    weightedMean items = (weightedSum items : ℚ) / (totalWeight items : ℚ) := by
  have hsums : (weightedSum items : ℚ) =
        (items.map fun item => (item.1.value * item.2.value : ℚ)).sum ∧
      (totalWeight items : ℚ) = (items.map fun item => (item.2.value : ℚ)).sum := by
    induction items with
    | nil => exact ⟨Nat.cast_zero, Nat.cast_zero⟩
    | cons item rest ih =>
      rw [weightedSum_cons, totalWeight_cons, List.map_cons, List.map_cons, List.sum_cons,
        List.sum_cons, ← ih.1, ← ih.2]
      push_cast
      exact ⟨rfl, rfl⟩
  rw [weightedMean, hsums.1, hsums.2]

theorem totalWeight_pos_iff : 0 < totalWeight items ↔ ∃ item ∈ items, 0 < item.2.value := by
  induction items with
  | nil => simp [totalWeight, total]
  | cons item rest ih => rw [totalWeight_cons, Nat.add_pos_iff_pos_or_pos, ih, List.exists_mem_cons_iff]

theorem mem_weighing {item : Percentage × Weight} :
    item ∈ weighing items ↔ item ∈ items ∧ 0 < item.2.value := by
  rw [weighing, List.mem_filter, decide_eq_true_eq]

/-- Items without a weight add nothing to either sum. -/
theorem sums_weighing (items : List (Percentage × Weight)) :
    totalWeight (weighing items) = totalWeight items ∧
      weightedSum (weighing items) = weightedSum items := by
  induction items with
  | nil => exact ⟨rfl, rfl⟩
  | cons item rest ih =>
    rw [weighing, List.filter_cons]
    split
    · exact ⟨congrArg (item.2.value + ·) ih.1, congrArg (item.1.value * item.2.value + ·) ih.2⟩
    case isFalse hzero =>
      have hweight : item.2.value = 0 := by simpa using hzero
      rw [totalWeight_cons, weightedSum_cons, hweight, Nat.mul_zero, Nat.zero_add, Nat.zero_add]
      exact ih

theorem sums_of_perm (h : items.Perm items') :
    totalWeight items = totalWeight items' ∧ weightedSum items = weightedSum items' :=
  ⟨total_of_perm (h.map _), total_of_perm (h.map _)⟩

/-- What is no greater for each item that has a weight is no greater in the sum by weights. -/
theorem total_le_of_weighing {f g : Percentage × Weight → Nat}
    (h : ∀ item ∈ weighing items, f item ≤ g item) :
    total (items.map fun item => f item * item.2.value) ≤
      total (items.map fun item => g item * item.2.value) := by
  induction items with
  | nil => exact Nat.le_refl 0
  | cons item rest ih =>
    have hrest := ih fun i hi => h i (by
      rw [mem_weighing] at hi ⊢
      exact ⟨List.mem_cons_of_mem _ hi.1, hi.2⟩)
    have hitem : f item * item.2.value ≤ g item * item.2.value := by
      rcases Nat.eq_zero_or_pos item.2.value with hzero | hpos
      · rw [hzero]
        exact Nat.le_refl 0
      · exact Nat.mul_le_mul_right _ (h item (mem_weighing.2 ⟨List.mem_cons_self .., hpos⟩))
    exact Nat.add_le_add hitem hrest

theorem total_const_mul (c : Nat) (items : List (Percentage × Weight)) :
    total (items.map fun item => c * item.2.value) = c * totalWeight items := by
  induction items with
  | nil => rfl
  | cons item rest ih =>
    rw [totalWeight_cons, Nat.mul_add, ← ih]
    rfl

/-- A bound from below of the progress that has a weight is one of the weighted sum. -/
theorem mul_totalWeight_le {low : Nat} (h : ∀ item ∈ weighing items, low ≤ item.1.value) :
    low * totalWeight items ≤ weightedSum items :=
  total_const_mul low items ▸ total_le_of_weighing h

/-- A bound from above of the progress that has a weight is one of the weighted sum. -/
theorem le_mul_totalWeight {high : Nat} (h : ∀ item ∈ weighing items, item.1.value ≤ high) :
    weightedSum items ≤ high * totalWeight items :=
  total_const_mul high items ▸ total_le_of_weighing h

/-! ### Exact averages -/

theorem averageIn_of_pos (h : 0 < totalWeight items) :
    averageIn ℚ items = Percentage.ofMetric (weightedMean items) := by
  rw [averageIn, if_neg h.ne', weightedMean_eq]
  rfl

/-- The mean is between nothing and all. -/
theorem weightedMean_mem (items : List (Percentage × Weight)) :
    0 ≤ weightedMean items ∧ weightedMean items ≤ 100 := by
  have hsum : weightedSum items ≤ 100 * totalWeight items :=
    le_mul_totalWeight fun item _ => item.1.le_hundred
  rw [weightedMean_eq]
  refine ⟨div_nonneg (Nat.cast_nonneg _) (Nat.cast_nonneg _), ?_⟩
  exact div_le_of_le_mul₀ (Nat.cast_nonneg _) (by norm_num) (by exact_mod_cast hsum)

/-- The average is the integer nearest to the mean, a half going up. -/
theorem value_averageIn (h : 0 < totalWeight items) :
    ((averageIn ℚ items).value : ℤ) = ⌊weightedMean items + 1 / 2⌋ := by
  obtain ⟨hnonneg, hle⟩ := weightedMean_mem items
  rw [averageIn_of_pos h, Percentage.value_ofMetric hnonneg hle]

/-- **An average rises with the weighted sum**, if the weights sum up to the same. -/
theorem averageIn_mono (hweight : totalWeight items = totalWeight items')
    (hsum : weightedSum items ≤ weightedSum items') :
    (averageIn ℚ items).value ≤ (averageIn ℚ items').value := by
  rcases Nat.eq_zero_or_pos (totalWeight items) with hzero | hpos
  · rw [averageIn, if_pos hzero]
    exact Nat.zero_le _
  · rw [averageIn_of_pos hpos, averageIn_of_pos (hweight ▸ hpos)]
    apply Percentage.ofMetric_mono
    rw [weightedMean_eq, weightedMean_eq, ← hweight]
    exact div_le_div_of_nonneg_right (by exact_mod_cast hsum) (Nat.cast_nonneg _)

theorem averageIn_congr (hweight : totalWeight items = totalWeight items')
    (hsum : weightedSum items = weightedSum items') : averageIn ℚ items = averageIn ℚ items' := by
  rw [averageIn, averageIn, hweight, hsum]

/-- Some item with a weight has no more progress than the average. -/
theorem exists_le_averageIn (h : 0 < totalWeight items) :
    ∃ low ∈ weighing items, low.1.value ≤ (averageIn ℚ items).value := by
  by_contra hnone
  push Not at hnone
  -- the average would be less than a bound of all that has a weight
  have hmean : (((averageIn ℚ items).value + 1 : ℕ) : ℚ) ≤ weightedMean items := by
    rw [weightedMean_eq, le_div_iff₀ (by exact_mod_cast h)]
    exact_mod_cast mul_totalWeight_le hnone
  have hfloor : (((averageIn ℚ items).value + 1 : ℕ) : ℤ) ≤ ⌊weightedMean items + 1 / 2⌋ := by
    rw [Int.le_floor]
    push_cast at hmean ⊢
    linarith
  rw [← value_averageIn h] at hfloor
  omega

/-- Some item with a weight has no less progress than the average. -/
theorem exists_averageIn_le (h : 0 < totalWeight items) :
    ∃ high ∈ weighing items, (averageIn ℚ items).value ≤ high.1.value := by
  by_contra hnone
  push Not at hnone
  have hbound : ∀ item ∈ weighing items, item.1.value ≤ (averageIn ℚ items).value - 1 :=
    fun item hitem => Nat.le_sub_one_of_lt (hnone item hitem)
  have hmean : weightedMean items ≤ (((averageIn ℚ items).value - 1 : ℕ) : ℚ) := by
    rw [weightedMean_eq, div_le_iff₀ (by exact_mod_cast h)]
    exact_mod_cast le_mul_totalWeight hbound
  have hfloor : ⌊weightedMean items + 1 / 2⌋ < (((averageIn ℚ items).value - 1 : ℕ) : ℤ) + 1 := by
    rw [Int.floor_lt]
    push_cast at hmean ⊢
    linarith
  rw [← value_averageIn h] at hfloor
  obtain ⟨item, hitem, hpos⟩ := totalWeight_pos_iff.1 h
  have hless := hnone item (mem_weighing.2 ⟨hitem, hpos⟩)
  omega

/-- Where each item has as much progress or more, at the same weight, so has the average. -/
theorem averageIn_le_of_forall₂
    (h : List.Forall₂ (fun a b => a.2 = b.2 ∧ a.1.value ≤ b.1.value) items items') :
    (averageIn ℚ items).value ≤ (averageIn ℚ items').value := by
  have hsums : totalWeight items = totalWeight items' ∧ weightedSum items ≤ weightedSum items' := by
    induction h with
    | nil => exact ⟨rfl, Nat.le_refl 0⟩
    | cons hitem _ ih =>
      rw [totalWeight_cons, totalWeight_cons, weightedSum_cons, weightedSum_cons, ← hitem.1, ih.1]
      exact ⟨rfl, Nat.add_le_add (Nat.mul_le_mul_right _ hitem.2) ih.2⟩
  exact averageIn_mono hsums.1 hsums.2

/-! ### What can be relied on -/

/-- What can be relied on in averages of progress by weight. -/
structure Averages (average : List (Percentage × Weight) → Percentage) : Prop where
  /-- There is nothing if no item has a weight. -/
  weightless : ∀ items, (∀ item ∈ items, ¬ 0 < item.2.value) → average items = Percentage.zero
  /-- It is the integer nearest to the mean, a half going up. -/
  nearest : ∀ items, (∃ item ∈ items, 0 < item.2.value) →
    ((average items).value : ℤ) = ⌊weightedMean items + 1 / 2⌋
  /-- It lies between the progress of two of the items that have a weight. -/
  between : ∀ items, (∃ item ∈ items, 0 < item.2.value) →
    ∃ low ∈ weighing items, ∃ high ∈ weighing items,
      low.1.value ≤ (average items).value ∧ (average items).value ≤ high.1.value
  /-- Neither the order of the items makes a difference nor an item without a weight. -/
  order : ∀ items items', (weighing items).Perm (weighing items') → average items = average items'
  /-- It is not lowered by more progress of an item. -/
  raise : ∀ before after p p' w, p.value ≤ p'.value →
    (average (before ++ (p, w) :: after)).value ≤ (average (before ++ (p', w) :: after)).value
  /-- It is not lowered by weight that goes over to an item of no less progress. -/
  shift : ∀ rest p q v w v' w', p.value ≤ q.value → v'.value ≤ v.value →
    v.value + w.value = v'.value + w'.value → ∀ items items',
    items.Perm ((p, v) :: (q, w) :: rest) → items'.Perm ((p, v') :: (q, w') :: rest) →
    (average items).value ≤ (average items').value

/-- **Exact averages can be relied on.** -/
theorem averages_rat : Averages (averageIn ℚ) where
  weightless items h := by
    have hzero : ¬ 0 < totalWeight items := by
      rw [totalWeight_pos_iff]
      rintro ⟨item, hitem, hpos⟩
      exact h item hitem hpos
    rw [averageIn, if_pos (Nat.eq_zero_of_not_pos hzero)]
  nearest items h := value_averageIn (totalWeight_pos_iff.2 h)
  between items h := by
    obtain ⟨low, hlow, hle⟩ := exists_le_averageIn (totalWeight_pos_iff.2 h)
    obtain ⟨high, hhigh, hge⟩ := exists_averageIn_le (totalWeight_pos_iff.2 h)
    exact ⟨low, hlow, high, hhigh, hle, hge⟩
  order items items' h := by
    obtain ⟨hweight, hsum⟩ := sums_of_perm h
    rw [(sums_weighing items).1, (sums_weighing items').1] at hweight
    rw [(sums_weighing items).2, (sums_weighing items').2] at hsum
    exact averageIn_congr hweight hsum
  raise before after p p' w h := by
    refine averageIn_le_of_forall₂ (List.rel_append ?_ (.cons ⟨rfl, h⟩ ?_))
    · exact List.forall₂_same.2 fun item _ => ⟨rfl, Nat.le_refl _⟩
    · exact List.forall₂_same.2 fun item _ => ⟨rfl, Nat.le_refl _⟩
  shift rest p q v w v' w' hpq hv hsame items items' hitems hitems' := by
    obtain ⟨hweight, hsum⟩ := sums_of_perm hitems
    obtain ⟨hweight', hsum'⟩ := sums_of_perm hitems'
    simp only [totalWeight_cons, weightedSum_cons] at hweight hsum hweight' hsum'
    refine averageIn_mono (by omega) ?_
    -- what the first item loses, the second gains
    obtain ⟨moved, hmoved⟩ := Nat.exists_eq_add_of_le hv
    have hw' : w'.value = w.value + moved := by omega
    have hgain : p.value * moved ≤ q.value * moved := Nat.mul_le_mul_right _ hpq
    rw [hsum, hsum', hmoved, hw', Nat.mul_add, Nat.mul_add]
    omega

end Progress

/-! ### Goals and teams -/

namespace Memory

open Progress

variable {m : Memory}

/-- The progress of a goal, divided in the numbers of `α`. -/
def goalProgressIn (α : Type) [Metric α] (m : Memory) (id : GoalId) : Percentage :=
  averageIn α ((m.listKeyResults id).map fun k => (ofKeyResult k, k.weight))

/-- The progress in the row of a team, divided in the numbers of `α`. -/
def rowProgressIn (α : Type) [Metric α] (m : Memory) (team : TeamId) (period : PeriodId) :
    Percentage :=
  averageIn α ((m.goalsOf team period).map fun entry =>
    (m.goalProgressIn α entry.goal.id, entry.weight))

/-- A store in which one key result, if it is there, has another measurement. -/
def withMeasurement (m : Memory) (id : KeyResultId) (measurement : Measurement) : Memory :=
  { m with keyResults := m.keyResults.modify id fun k => { k with measurement } }

/-- The rows show the progress that is divided in doubles. -/
theorem progress_row (m : Memory) (indentUnit : Nat) (period : PeriodId) (e : WalkEntry) :
    (m.row indentUnit period e).progress = m.rowProgressIn Double e.team.id period ∧
      (m.row indentUnit period e).goals.map (fun g => (g.id, g.progress)) =
        (m.goalsOf e.team.id period).map fun entry =>
          (entry.goal.id, m.goalProgressIn Double entry.goal.id) := by
  constructor
  · show average _ = average _
    rw [List.map_map]
    rfl
  · show ((m.goalsOf e.team.id period).map m.summary).map _ = _
    rw [List.map_map]
    rfl

/-- The key results of a goal are the same but for the one, which has no less progress. -/
theorem forall₂_keyResultsIn {id : KeyResultId} {measurement : Measurement}
    (h : ∀ k, m.keyResults.get? id = some k →
      (ofMeasurement k.measurement).value ≤ (ofMeasurement measurement).value) (goal : GoalId) :
    List.Forall₂ (fun k k' => k.weight = k'.weight ∧ (ofKeyResult k).value ≤ (ofKeyResult k').value)
      (m.keyResultsIn goal) ((m.withMeasurement id measurement).keyResultsIn goal) := by
  have hvalues : List.Forall₂ (fun k k' => k.goal = k'.goal ∧ k.weight = k'.weight ∧
      (ofKeyResult k).value ≤ (ofKeyResult k').value)
      m.keyResults.values (m.withMeasurement id measurement).keyResults.values := by
    simp only [withMeasurement, Table.values, Table.modify, Table.mapValues, List.map_map,
      List.forall₂_map_left_iff, List.forall₂_map_right_iff]
    refine List.forall₂_same.2 fun e he => ?_
    simp only [Function.comp_apply]
    split
    case isTrue hid =>
      refine ⟨rfl, rfl, h e.2 ?_⟩
      rw [Table.get?_eq_some_iff, ← hid]
      exact he
    case isFalse => exact ⟨rfl, rfl, Nat.le_refl _⟩
  have hfiltered := List.rel_filter (p := fun k => k.goal == goal) (q := fun k => k.goal == goal)
    (fun k k' hk => by simp only [hk.1]) hvalues
  exact hfiltered.imp fun _ _ hk => hk.2

/-- A key result that makes progress does not take its goal back, nor any other. -/
theorem goalProgressIn_mono {id : KeyResultId} {measurement : Measurement}
    (h : ∀ k, m.keyResults.get? id = some k →
      (ofMeasurement k.measurement).value ≤ (ofMeasurement measurement).value) (goal : GoalId) :
    (m.goalProgressIn ℚ goal).value ≤
      ((m.withMeasurement id measurement).goalProgressIn ℚ goal).value := by
  -- the order of the key results does not matter
  have hplain (m : Memory) : m.goalProgressIn ℚ goal =
      averageIn ℚ ((m.keyResultsIn goal).map fun k => (ofKeyResult k, k.weight)) := by
    have hperm : (m.listKeyResults goal).Perm (m.keyResultsIn goal) := sortBy_perm ..
    exact averages_rat.order _ _ ((hperm.map _).filter _)
  rw [hplain, hplain]
  apply averageIn_le_of_forall₂
  rw [List.forall₂_map_left_iff, List.forall₂_map_right_iff]
  exact forall₂_keyResultsIn h goal

/-- **Exact averages can be relied on, and a key result that makes progress takes neither its goal nor
any team back.**  The progress of goals and teams, as the rows show it, is such an average of averages;
where it is divided exactly, it is in no row and for no goal less than before once one key result has a
measurement of no less progress, and all else is the same. -/
theorem progress_rises :
    Averages (averageIn ℚ) ∧
      (∀ (m : Memory) (indentUnit : Nat) (period : PeriodId) (e : WalkEntry),
        (m.row indentUnit period e).progress = m.rowProgressIn Double e.team.id period ∧
          (m.row indentUnit period e).goals.map (fun g => (g.id, g.progress)) =
            (m.goalsOf e.team.id period).map fun entry =>
              (entry.goal.id, m.goalProgressIn Double entry.goal.id)) ∧
      ∀ (m : Memory) (id : KeyResultId) (measurement : Measurement),
        (∀ k, m.keyResults.get? id = some k →
          (ofMeasurement k.measurement).value ≤ (ofMeasurement measurement).value) →
        (∀ goal, (m.goalProgressIn ℚ goal).value ≤
          ((m.withMeasurement id measurement).goalProgressIn ℚ goal).value) ∧
        ∀ team period, (m.rowProgressIn ℚ team period).value ≤
          ((m.withMeasurement id measurement).rowProgressIn ℚ team period).value := by
  refine ⟨averages_rat, progress_row, fun m id measurement h => ⟨goalProgressIn_mono h, ?_⟩⟩
  intro team period
  apply averageIn_le_of_forall₂
  rw [List.forall₂_map_left_iff, List.forall₂_map_right_iff]
  -- the team has the same goals at the same weights
  exact List.forall₂_same.2 fun entry _ => ⟨rfl, goalProgressIn_mono h entry.goal.id⟩

/-- Three quarters of the weight at 80 percent and a quarter at 50 make 72.5 percent, which is rounded
up, and the second item counts nothing.  In the store, the key result of the shared goal is reached, and
with it the goal and the part of either team. -/
theorem progress_rises_reached :
    let items : List (Percentage × Weight) := [(⟨80, by decide⟩, ⟨30, by decide⟩),
      (⟨45, by decide⟩, ⟨0, by decide⟩), (⟨50, by decide⟩, ⟨10, by decide⟩)]
    let reached := discussed.withMeasurement 5 (.boolean true)
    (∃ item ∈ items, 0 < item.2.value) ∧ weightedMean items = 145 / 2 ∧
      (averageIn ℚ items).value = 73 ∧
      (∀ k, discussed.keyResults.get? 5 = some k →
        (ofMeasurement k.measurement).value ≤ (ofMeasurement (.boolean true)).value) ∧
      (discussed.goalProgressIn ℚ 4).value = 0 ∧ (reached.goalProgressIn ℚ 4).value = 100 ∧
      (discussed.goalProgressIn ℚ 4).value ≤ (reached.goalProgressIn ℚ 4).value ∧
      (discussed.rowProgressIn ℚ 2 3).value ≤ (reached.rowProgressIn ℚ 2 3).value := by
  intro items reached
  obtain ⟨haverages, -, hrises⟩ := progress_rises
  have hpos : ∃ item ∈ items, 0 < item.2.value := by decide
  have hmean : weightedMean items = 145 / 2 := by norm_num [weightedMean, items]
  have haverage := haverages.nearest items hpos
  rw [hmean] at haverage
  have hless : ∀ k, discussed.keyResults.get? 5 = some k →
      (ofMeasurement k.measurement).value ≤ (ofMeasurement (.boolean true)).value :=
    fun k _ => (ofMeasurement k.measurement).le_hundred
  obtain ⟨hgoals, hrows⟩ := hrises discussed 5 (.boolean true) hless
  refine ⟨hpos, hmean, ?_, hless, by decide +kernel, by decide +kernel, hgoals 4, hrows 2 3⟩
  norm_num at haverage
  exact_mod_cast haverage

end Memory

end Objectives
