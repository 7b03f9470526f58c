/- # The order keys of siblings

Order keys are given when a record is created and when a goal gets another owner, and exchanged when
an item is moved.  Whatever calls are made, the keys of siblings stay pairwise distinct.

Main definitions:

* `Memory.InOrder` — a store whose goals, key results and periods are in order;
* `Memory.orders` — all order keys of a store.

Main results:

* `Memory.InOrder.carry` — a call keeps a store in order, and the greatest key grows by at most one;
* `Memory.distinct_orders_after` — **after any calls the order keys of siblings are pairwise
  distinct and at most as great as the number of calls**.
-/

import Objectives.Proofs.Sequenced
import Objectives.Proofs.Subject

set_option relaxedAutoImplicit false
set_option autoImplicit false

namespace Objectives.Memory

/-! ### Siblings -/

theorem mem_goalsOwned {m : Memory} {team : TeamId} {period : PeriodId} {g : Goal} :
    g ∈ m.goalsOwned team period ↔ g ∈ m.goals.values ∧ g.team = team ∧ g.period = period := by
  simp [goalsOwned]

theorem mem_keyResultsIn {m : Memory} {goal : GoalId} {k : KeyResult} :
    k ∈ m.keyResultsIn goal ↔ k ∈ m.keyResults.values ∧ k.goal = goal := by
  simp [keyResultsIn]

/-! ### The table of goals -/

section Goals

variable {m : Memory} {bound : Int}

theorem createGoal_inOrder (h : m.goals.InOrder bound) (h0 : 0 ≤ bound) (team : TeamId)
    (period : PeriodId) (draft : GoalDraft) :
    (m.createGoal team period draft).2.goals.InOrder (bound + 1) := by
  refine h.insert_orderAfter h0 rfl (m.goalsOwned team period) ?_ ?_ rfl
  · intro g hg
    exact (mem_goalsOwned.1 hg).1
  · intro i g _ hg hfamily
    refine mem_goalsOwned.2 ⟨Table.mem_values_iff.2 ⟨i, hg⟩, ?_⟩
    exact ⟨congrArg Prod.fst hfamily, congrArg Prod.snd hfamily⟩

theorem updateGoal_inOrder (h : m.goals.InOrder bound) (id : GoalId) (draft : GoalDraft) :
    (m.updateGoal id draft).2.goals.InOrder bound := by
  unfold updateGoal
  split
  · exact h
  · rename_i goal hget
    exact h.of_placed (Table.Placed.insert hget rfl rfl rfl)

theorem deleteGoal_inOrder (h : m.goals.InOrder bound) (id : GoalId) :
    (m.deleteGoal id).2.goals.InOrder bound := by
  unfold deleteGoal
  split
  · exact h.of_placed (Table.Placed.erase m.goals id)
  · exact h

/-- A goal that gets another owner is put after the goals of that owner; one that keeps its owner
keeps its place. -/
theorem setOwner_inOrder (h : m.goals.InOrder bound) (h0 : 0 ≤ bound) (id : GoalId)
    (owner : ShareTarget) : (m.setOwner id owner).2.goals.InOrder (bound + 1) := by
  have hle : bound ≤ bound + 1 := by omega
  unfold setOwner
  split
  · exact h.mono hle
  · rename_i goal hget
    by_cases howner : goal.team = owner.team
    · simp only [howner, beq_self_eq_true, if_true]
      have hplaced : (m.goals.insert id
          { goal with team := owner.team, weight := owner.weight }).Placed m.goals :=
        Table.Placed.insert hget rfl (Prod.ext howner.symm rfl) rfl
      exact (h.of_placed hplaced).mono hle
    · simp only [beq_iff_eq, howner, if_false]
      refine h.insert_orderAfter h0 (h.keyed id goal hget) _ ?_ ?_ rfl
      · intro g hg
        exact (mem_goalsOwned.1 (List.mem_filter.1 hg).1).1
      · intro i g hi hg hfamily
        have hid : g.id ≠ id := by
          rw [show g.id = i from h.keyed i g hg]
          exact hi
        refine List.mem_filter.2 ⟨mem_goalsOwned.2 ⟨Table.mem_values_iff.2 ⟨i, hg⟩, ?_⟩, ?_⟩
        · exact ⟨congrArg Prod.fst hfamily, congrArg Prod.snd hfamily⟩
        · simpa using hid

/-- A replacement of shares does to the goals what the change of the owner does. -/
theorem replaceShares_goals (m : Memory) (plan : SharePlan) :
    (m.replaceShares plan).2.goals = (m.setOwner plan.goal plan.owner).2.goals := by
  unfold replaceShares
  split
  · rename_i hset
    rw [hset]
  · rename_i hset
    rw [hset]

/-- A promotion does to the goals what the change of the owner does. -/
theorem promote_goals (m : Memory) (share : Share) :
    (m.promote share).2.goals = (m.setOwner share.goal ⟨share.team, share.weight⟩).2.goals := by
  unfold promote
  split
  · rename_i hset
    rw [hset]
  · rename_i hset
    rw [hset]
    rfl

theorem setShareWeight_goals (m : Memory) (goal : GoalId) (team : TeamId) (weight : Weight) :
    (m.setShareWeight goal team weight).2.goals = m.goals := by
  unfold setShareWeight
  split <;> rfl

theorem setTeamWeight_inOrder (h : m.goals.InOrder bound) (id : GoalId) (team : TeamId)
    (weight : Weight) : (m.setTeamWeight id team weight).2.goals.InOrder bound := by
  unfold setTeamWeight
  split
  · rename_i goal hget
    split
    · exact h.of_placed (Table.Placed.insert hget rfl rfl rfl)
    · rw [setShareWeight_goals]
      exact h
  · rw [setShareWeight_goals]
    exact h

theorem move_goals_inOrder (h : m.goals.InOrder bound) (id : GoalId) (asTeam : Option TeamId)
    (direction : Direction) : (m.move (.goal id asTeam) direction).2.goals.InOrder bound := by
  unfold move
  simp only
  split
  · exact h
  · rename_i goal hget
    split
    · exact h
    · refine h.move hget ?_ direction
      intro s hs
      obtain ⟨g, hg, rfl⟩ := List.mem_map.1 hs
      obtain ⟨hmem, hteam, hperiod⟩ := mem_goalsOwned.1 hg
      exact ⟨g, h.keyed.get?_of_mem hmem, Prod.ext hteam hperiod, rfl⟩

/-- A call keeps the goals in order. -/
theorem carry_goals_inOrder (h : m.goals.InOrder bound) (h0 : 0 ≤ bound) (c : Call) :
    (carry c m).2.goals.InOrder (bound + 1) := by
  have hle : bound ≤ bound + 1 := by omega
  by_cases hs : c.subject = .goals ∨ c.subject = .wholeGoal
  · cases c with
    | createGoal team period draft => exact createGoal_inOrder h h0 team period draft
    | updateGoal id draft => exact (updateGoal_inOrder h id draft).mono hle
    | deleteGoal id => exact (deleteGoal_inOrder h id).mono hle
    | replaceShares plan =>
      show (m.replaceShares plan).2.goals.InOrder (bound + 1)
      rw [replaceShares_goals]
      exact setOwner_inOrder h h0 plan.goal plan.owner
    | removeShare goal team => exact h.mono hle
    | promote share =>
      show (m.promote share).2.goals.InOrder (bound + 1)
      rw [promote_goals]
      exact setOwner_inOrder h h0 share.goal ⟨share.team, share.weight⟩
    | setTeamWeight goal team weight => exact (setTeamWeight_inOrder h goal team weight).mono hle
    | move item direction =>
      cases item with
      | goal id asTeam => exact (move_goals_inOrder h id asTeam direction).mono hle
      | keyResult id => rcases hs with hs | hs <;> cases hs
      | period id => rcases hs with hs | hs <;> cases hs
    | _ => rcases hs with hs | hs <;> cases hs
  · rw [not_or] at hs
    rw [((touched_carry c m).goals_shares hs.1 hs.2).1]
    exact h.mono hle

end Goals

/-! ### The table of key results -/

section KeyResults

variable {m : Memory} {bound : Int}

theorem createKeyResult_inOrder (h : m.keyResults.InOrder bound) (h0 : 0 ≤ bound) (goal : GoalId)
    (draft : KeyResultDraft) :
    (m.createKeyResult goal draft).2.keyResults.InOrder (bound + 1) := by
  unfold createKeyResult
  split
  · obtain ⟨lastId, -, hmeasure⟩ := m.takeId.measure_snd draft.measurement []
    simp only [hmeasure]
    refine h.insert_orderAfter h0 rfl (m.keyResultsIn goal) ?_ ?_ rfl
    · intro k hk
      exact (mem_keyResultsIn.1 hk).1
    · intro i k _ hk hfamily
      exact mem_keyResultsIn.2 ⟨Table.mem_values_iff.2 ⟨i, hk⟩, hfamily⟩
  · exact h.mono (by omega)

theorem Replaced.inOrder {m' : Memory} {id : KeyResultId} (hm' : m.Replaced id m')
    (h : m.keyResults.InOrder bound) : m'.keyResults.InOrder bound := by
  cases hm' with
  | none _ => exact h
  | one hget hid hgoal horder _ => exact h.of_placed (Table.Placed.insert hget hid hgoal horder)

/-- Weights are set one after the other; each of them leaves the places of all key results. -/
theorem foldl_setWeight_placed (weights : List (KeyResultId × Weight))
    (keyResults : Table KeyResultId KeyResult) :
    (weights.foldl setWeight keyResults).Placed keyResults := by
  induction weights generalizing keyResults with
  | nil => exact Table.Placed.refl keyResults
  | cons item rest ih =>
    refine (ih _).trans ?_
    exact Table.Placed.modify keyResults item.1 (fun _ => rfl) (fun _ => rfl) fun _ => rfl

theorem setWeights_inOrder (h : m.keyResults.InOrder bound) (goal : GoalId)
    (weights : List (KeyResultId × Weight)) :
    (m.setWeights goal weights).2.keyResults.InOrder bound := by
  unfold setWeights
  split
  · exact h
  · exact h.of_placed (foldl_setWeight_placed weights m.keyResults)

theorem deleteKeyResult_inOrder (h : m.keyResults.InOrder bound) (id : KeyResultId) :
    (m.deleteKeyResult id).2.keyResults.InOrder bound := by
  unfold deleteKeyResult
  split
  · exact h.of_placed (Table.Placed.erase m.keyResults id)
  · exact h

theorem deleteGoal_keyResults_inOrder (h : m.keyResults.InOrder bound) (id : GoalId) :
    (m.deleteGoal id).2.keyResults.InOrder bound := by
  unfold deleteGoal
  split
  · exact h.of_placed (Table.Placed.filter m.keyResults _)
  · exact h

theorem move_keyResults_inOrder (h : m.keyResults.InOrder bound) (id : KeyResultId)
    (direction : Direction) :
    (m.move (.keyResult id) direction).2.keyResults.InOrder bound := by
  unfold move
  simp only
  split
  · exact h
  · rename_i keyResult hget
    refine h.move hget ?_ direction
    intro s hs
    obtain ⟨k, hk, rfl⟩ := List.mem_map.1 hs
    obtain ⟨hmem, hgoal⟩ := mem_keyResultsIn.1 hk
    exact ⟨k, h.keyed.get?_of_mem hmem, hgoal, rfl⟩

/-- A call keeps the key results in order. -/
theorem carry_keyResults_inOrder (h : m.keyResults.InOrder bound) (h0 : 0 ≤ bound) (c : Call) :
    (carry c m).2.keyResults.InOrder (bound + 1) := by
  have hle : bound ≤ bound + 1 := by omega
  by_cases hs : c.subject = .keyResults ∨ c.subject = .wholeGoal
  · cases c with
    | createKeyResult goal draft => exact createKeyResult_inOrder h h0 goal draft
    | updateKeyResult id draft => exact ((m.replaced_updateKeyResult id draft).inOrder h).mono hle
    | setWeights goal weights => exact (setWeights_inOrder h goal weights).mono hle
    | recordProgress id update => exact ((m.replaced_recordProgress id update).inOrder h).mono hle
    | addCheckpoint id draft => exact ((m.replaced_addCheckpoint id draft).inOrder h).mono hle
    | deleteKeyResult id => exact (deleteKeyResult_inOrder h id).mono hle
    | addComment target text =>
      show (m.addComment target text).2.keyResults.InOrder (bound + 1)
      unfold addComment
      split <;> exact h.mono hle
    | deleteGoal id => exact (deleteGoal_keyResults_inOrder h id).mono hle
    | move item direction =>
      cases item with
      | keyResult id => exact (move_keyResults_inOrder h id direction).mono hle
      | goal id asTeam => rcases hs with hs | hs <;> cases hs
      | period id => rcases hs with hs | hs <;> cases hs
    | _ => rcases hs with hs | hs <;> cases hs
  · rw [not_or] at hs
    rw [((touched_carry c m).keyResults_comments hs.1 hs.2).1]
    exact h.mono hle

end KeyResults

/-! ### The table of periods -/

section Periods

variable {m : Memory} {bound : Int}

theorem createPeriod_inOrder (h : m.periods.InOrder bound) (h0 : 0 ≤ bound) (name : String)
    (startDate endDate : Date) :
    (m.createPeriod name startDate endDate).2.periods.InOrder (bound + 1) := by
  unfold createPeriod
  simp only
  split
  · rename_i period hmake
    have hperiod : period.id = m.takeId.lastId ∧
        period.sortOrder = orderAfter (m.periods.values.map Period.sortOrder) := by
      unfold Period.make at hmake
      simp only at hmake
      split at hmake
      · cases hmake
      · split at hmake <;> cases hmake
        exact ⟨rfl, rfl⟩
    refine h.insert_orderAfter h0 rfl m.periods.values ?_ ?_ hperiod.2
    · intro p hp
      exact hp
    · intro i p _ hp _
      exact Table.mem_values_iff.2 ⟨i, hp⟩
  · exact h.mono (by omega)

theorem move_periods_inOrder (h : m.periods.InOrder bound) (id : PeriodId)
    (direction : Direction) : (m.move (.period id) direction).2.periods.InOrder bound := by
  unfold move
  simp only
  split
  · exact h
  · rename_i period hget
    refine h.move hget ?_ direction
    intro s hs
    obtain ⟨p, hp, rfl⟩ := List.mem_map.1 hs
    exact ⟨p, h.keyed.get?_of_mem hp, rfl, rfl⟩

/-- A call keeps the periods in order. -/
theorem carry_periods_inOrder (h : m.periods.InOrder bound) (h0 : 0 ≤ bound) (c : Call) :
    (carry c m).2.periods.InOrder (bound + 1) := by
  have hle : bound ≤ bound + 1 := by omega
  by_cases hs : c.subject = .periods
  · cases c with
    | createPeriod name startDate endDate => exact createPeriod_inOrder h h0 name startDate endDate
    | move item direction =>
      cases item with
      | period id => exact (move_periods_inOrder h id direction).mono hle
      | goal id asTeam => cases hs
      | keyResult id => cases hs
    | _ => cases hs
  · rw [(touched_carry c m).periods hs]
    exact h.mono hle

end Periods

/-! ### Runs of calls -/

/-- The goals, the key results and the periods are in order, with keys up to a bound. -/
structure InOrder (m : Memory) (bound : Int) : Prop where
  goals : m.goals.InOrder bound
  keyResults : m.keyResults.InOrder bound
  periods : m.periods.InOrder bound

namespace InOrder

variable {m : Memory} {bound : Int}

theorem empty : Memory.empty.InOrder 0 where
  goals := Table.InOrder.empty 0
  keyResults := Table.InOrder.empty 0
  periods := Table.InOrder.empty 0

/-- A call keeps a store in order, and the greatest key grows by at most one. -/
theorem carry (h : m.InOrder bound) (h0 : 0 ≤ bound) (c : Call) :
    (Memory.carry c m).2.InOrder (bound + 1) where
  goals := carry_goals_inOrder h.goals h0 c
  keyResults := carry_keyResults_inOrder h.keyResults h0 c
  periods := carry_periods_inOrder h.periods h0 c

/-- A run of calls keeps a store in order, and the greatest key grows by at most one with each. -/
theorem after (h : m.InOrder bound) (h0 : 0 ≤ bound) (calls : List Call) :
    (m.after calls).InOrder (bound + calls.length) := by
  induction calls generalizing m bound with
  | nil => simpa using h
  | cons c rest ih =>
    have hrest := ih (h.carry h0 c) (by omega)
    rw [after_cons, List.length_cons]
    rw [show bound + ((rest.length + 1 : Nat) : Int) = bound + 1 + rest.length by omega]
    exact hrest

end InOrder

/-- The order keys of all goals, key results and periods. -/
def orders (m : Memory) : List Int :=
  m.goals.values.map Goal.sortOrder ++ m.keyResults.values.map KeyResult.sortOrder ++
    m.periods.values.map Period.sortOrder

/-- All order keys of a store in order lie between 1 and its bound. -/
theorem InOrder.bounds {m : Memory} {bound : Int} (h : m.InOrder bound) :
    ∀ order ∈ m.orders, 1 ≤ order ∧ order ≤ bound := by
  intro order ho
  simp only [orders, List.mem_append, List.mem_map] at ho
  rcases ho with (⟨g, hg, rfl⟩ | ⟨k, hk, rfl⟩) | ⟨p, hp, rfl⟩
  · obtain ⟨id, hid⟩ := Table.mem_values_iff.1 hg
    exact ⟨h.goals.one_le id g hid, h.goals.le_bound id g hid⟩
  · obtain ⟨id, hid⟩ := Table.mem_values_iff.1 hk
    exact ⟨h.keyResults.one_le id k hid, h.keyResults.le_bound id k hid⟩
  · obtain ⟨id, hid⟩ := Table.mem_values_iff.1 hp
    exact ⟨h.periods.one_le id p hid, h.periods.le_bound id p hid⟩

/-- **After any calls the order keys of siblings are pairwise distinct**, and all order keys lie
between 1 and the number of calls; the key that a new last sibling would get exceeds that number by
at most one, whichever the siblings are, and is a number of 32 bits for as long as the calls are few
enough. -/
theorem distinct_orders_after (calls : List Call) :
    let m := Memory.empty.after calls
    (∀ team period, ((m.goalsOwned team period).map Goal.sortOrder).Nodup) ∧
      (∀ goal, ((m.keyResultsIn goal).map KeyResult.sortOrder).Nodup) ∧
      (m.periods.values.map Period.sortOrder).Nodup ∧
      (∀ order ∈ m.orders, 1 ≤ order ∧ order ≤ calls.length) ∧
      (∀ siblings, siblings ⊆ m.orders → orderAfter siblings ≤ calls.length + 1 ∧
        (calls.length < 2147483647 → orderAfter siblings ≤ 2147483647)) := by
  intro m
  have h : m.InOrder calls.length := by
    simpa using InOrder.empty.after (Int.le_refl 0) calls
  refine ⟨?_, ?_, ?_, h.bounds, ?_⟩
  · intro team period
    refine h.goals.nodup_orders List.filter_sublist ?_
    intro a ha b hb
    obtain ⟨-, hta, hpa⟩ := mem_goalsOwned.1 ha
    obtain ⟨-, htb, hpb⟩ := mem_goalsOwned.1 hb
    exact Prod.ext (hta.trans htb.symm) (hpa.trans hpb.symm)
  · intro goal
    refine h.keyResults.nodup_orders List.filter_sublist ?_
    intro a ha b hb
    exact (mem_keyResultsIn.1 ha).2.trans (mem_keyResultsIn.1 hb).2.symm
  · exact h.periods.nodup_orders (List.Sublist.refl _) fun _ _ _ _ => rfl
  · intro siblings hsub
    have hle : orderAfter siblings ≤ calls.length + 1 := by
      refine Table.InOrder.orderAfter_le (by omega) ?_
      intro o ho
      exact (h.bounds o (hsub ho)).2
    exact ⟨hle, fun hfew => by omega⟩

end Objectives.Memory
