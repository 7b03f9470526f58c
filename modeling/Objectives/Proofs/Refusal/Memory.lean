/- # Refused commands over the store in memory

A command that fails leaves the store in memory as it was; at most identifiers have been given that no
record has.

Main definitions:

* `Memory.OwnKeys` — every record is stored under its own key;
* `Memory.records` — a store without its counter.

Main results:

* `Memory.undone_carry` — a call that fails changes no record;
* `Memory.Reachable.ownKeys` — every store that can come about has its records under their own keys;
* `Memory.unchanged_of_refused` — **a command that fails changes no record**.
-/

import Objectives.Proofs.OrderKeys
import Objectives.Proofs.Reachable
import Objectives.Proofs.Refusal

set_option relaxedAutoImplicit false
set_option autoImplicit false

namespace Objectives.Memory

/-! ### Records under their own keys -/

/-- Every record is stored under its own key. -/
structure OwnKeys (m : Memory) : Prop where
  teams : m.teams.Keyed Team.id
  periods : m.periods.Keyed Period.id
  goals : m.goals.Keyed Goal.id
  shares : m.shares.Keyed fun s => (s.goal, s.team)
  keyResults : m.keyResults.Keyed KeyResult.id
  comments : m.comments.Keyed Comment.id

theorem comments_measure (m : Memory) (draft : MeasurementDraft) (kept : List Checkpoint) :
    (m.measure draft kept).2.comments = m.comments := by
  obtain ⟨lastId, -, h⟩ := m.measure_snd draft kept
  rw [h]

/-- A new comment is stored under its identifier; no other call adds or changes one. -/
theorem carry_comments_keyed {m : Memory} (h : m.comments.Keyed Comment.id) (c : Call) :
    (carry c m).2.comments.Keyed Comment.id := by
  by_cases hs : c.subject = .keyResults ∨ c.subject = .wholeGoal
  · cases c with
    | deleteGoal id =>
      simp only [carry, deleteGoal]
      split
      · exact h.filter _
      · exact h
    | deleteKeyResult id =>
      simp only [carry, deleteKeyResult]
      split
      · exact h.filter _
      · exact h
    | addComment target text =>
      simp only [carry, addComment]
      split
      · exact h
      · exact h.insert rfl
    | createKeyResult goal draft =>
      simp only [carry, createKeyResult]
      split
      · rw [comments_measure]
        exact h
      · exact h
    | updateKeyResult id draft =>
      simp only [carry, (m.replaced_updateKeyResult id draft).comments]
      exact h
    | setWeights goal weights =>
      simp only [carry, setWeights]
      split <;> exact h
    | recordProgress id update =>
      simp only [carry, (m.replaced_recordProgress id update).comments]
      exact h
    | addCheckpoint id draft =>
      simp only [carry, (m.replaced_addCheckpoint id draft).comments]
      exact h
    | move item direction =>
      cases item with
      | keyResult id =>
        simp only [carry, move]
        split <;> exact h
      | goal id asTeam => rcases hs with hs | hs <;> cases hs
      | period id => rcases hs with hs | hs <;> cases hs
    | _ => rcases hs with hs | hs <;> cases hs
  · rw [not_or] at hs
    rw [((touched_carry c m).keyResults_comments hs.1 hs.2).2]
    exact h

/-- The order keys of a store that can come about are in order up to some bound. -/
theorem Reachable.inOrder {m : Memory} (h : m.Reachable) : ∃ bound, 0 ≤ bound ∧ m.InOrder bound := by
  refine h.induction (P := fun m => ∃ bound, 0 ≤ bound ∧ m.InOrder bound)
    ⟨0, Int.le_refl 0, InOrder.empty⟩ ?_ ?_ ?_
  · rintro m name type parent ⟨bound, h0, hm⟩
    exact ⟨bound, h0, hm.goals, hm.keyResults, hm.periods⟩
  · rintro m team parent ⟨bound, h0, hm⟩
    exact ⟨bound, h0, hm.goals, hm.keyResults, hm.periods⟩
  · rintro m c ⟨bound, h0, hm⟩
    exact ⟨bound + 1, by omega, hm.carry h0 c⟩

/-- Every store that can come about has its records under their own keys. -/
theorem Reachable.ownKeys {m : Memory} (h : m.Reachable) : m.OwnKeys := by
  obtain ⟨bound, -, horder⟩ := h.inOrder
  have hcomments : m.comments.Keyed Comment.id :=
    h.induction (P := fun m => m.comments.Keyed Comment.id) Table.Keyed.empty
      (fun _ _ _ _ hm => hm) (fun _ _ _ hm => hm) fun _ c hm => carry_comments_keyed hm c
  exact {
    teams := h.sound.teamsKeyed
    periods := horder.periods.keyed
    goals := horder.goals.keyed
    shares := h.sound.ledger.shareKeyed
    keyResults := horder.keyResults.keyed
    comments := hcomments }

/-! ### The calls, one by one -/

/-- A store without its counter: what is left when the identifiers that have been given do not count.
-/
def records (m : Memory) : Memory := { m with lastId := 0 }

/-- A store with the records of another is that one but for its counter. -/
theorem eq_of_records {m m' : Memory} (h : m'.records = m.records) :
    ∃ lastId, m' = { m with lastId } :=
  ⟨m'.lastId, by cases m; cases m'; simp only [records, mk.injEq] at h; simp [h]⟩

section Undone

variable (m : Memory)

theorem undone_createPeriod (name : String) (startDate endDate : Date) :
    (Call.createPeriod name startDate endDate).Undone carry records m := by
  intro e he
  simp only [carry, createPeriod] at he ⊢
  split at he
  · cases he
  · rfl

theorem undone_updateGoal (id : GoalId) (draft : GoalDraft) :
    (Call.updateGoal id draft).Undone carry records m := by
  intro e he
  simp only [carry, updateGoal] at he ⊢
  split at he
  · rfl
  · cases he

theorem undone_deleteGoal (id : GoalId) : (Call.deleteGoal id).Undone carry records m := by
  intro e he
  simp only [carry, deleteGoal] at he ⊢
  split at he
  · cases he
  · rename_i hmissing
    rw [if_neg hmissing]

/-- Owner and shares are changed together or not at all. -/
theorem undone_replaceShares (plan : SharePlan) :
    (Call.replaceShares plan).Undone carry records m := by
  intro e he
  simp only [carry, replaceShares] at he ⊢
  rcases m.setOwner_cases plan.goal plan.owner with ⟨-, hset⟩ | ⟨_, _, _, -, -, -, hset⟩
  · rw [hset]
  · rw [hset] at he
    cases he

theorem undone_promote (share : Share) : (Call.promote share).Undone carry records m := by
  intro e he
  simp only [carry, promote] at he ⊢
  rcases m.setOwner_cases share.goal ⟨share.team, share.weight⟩ with
    ⟨-, hset⟩ | ⟨_, _, _, -, -, -, hset⟩
  · rw [hset]
  · rw [hset] at he
    cases he

theorem undone_setTeamWeight (id : GoalId) (team : TeamId) (weight : Weight) :
    (Call.setTeamWeight id team weight).Undone carry records m := by
  have hshare : ∀ e, (m.setShareWeight id team weight).1 = .error e →
      (m.setShareWeight id team weight).2.records = m.records := by
    intro e he
    unfold setShareWeight at he ⊢
    split at he
    · cases he
    · rfl
  intro e he
  simp only [carry, setTeamWeight] at he ⊢
  split at he
  · split at he
    · cases he
    · rename_i howner
      rw [if_neg howner]
      exact hshare e he
  · exact hshare e he

theorem undone_createKeyResult (goal : GoalId) (draft : KeyResultDraft) :
    (Call.createKeyResult goal draft).Undone carry records m := by
  intro e he
  simp only [carry, createKeyResult] at he ⊢
  split at he
  · cases he
  · rename_i hmissing
    rw [if_neg hmissing]

theorem undone_updateKeyResult (id : KeyResultId) (draft : KeyResultDraft) :
    (Call.updateKeyResult id draft).Undone carry records m := by
  intro e he
  simp only [carry, updateKeyResult] at he ⊢
  split at he
  · rfl
  · cases he

/-- All weights are checked before the first is set. -/
theorem undone_setWeights (goal : GoalId) (weights : List (KeyResultId × Weight)) :
    (Call.setWeights goal weights).Undone carry records m := by
  intro e he
  simp only [carry, setWeights] at he ⊢
  split at he
  · rfl
  · cases he

/-- A report that is refused leaves the measurement that it would have been written to. -/
theorem undone_recordProgress (id : KeyResultId) (update : ProgressUpdate) :
    (Call.recordProgress id update).Undone carry records m := by
  intro e he
  simp only [carry, recordProgress] at he ⊢
  split at he
  · rfl
  · rename_i keyResult hget
    have hstays : { keyResult with measurement := (keyResult.measurement.report update).2 } =
        keyResult := by
      rw [Measurement.report_of_error he]
    rw [hstays, Table.insert_get? hget]

/-- A checkpoint that finds no place has used an identifier up. -/
theorem undone_addCheckpoint (id : KeyResultId) (draft : CheckpointDraft) :
    (Call.addCheckpoint id draft).Undone carry records m := by
  intro e he
  simp only [carry, addCheckpoint] at he ⊢
  split at he
  · split at he
    · cases he
    · rfl
  · rfl

theorem undone_deleteKeyResult (id : KeyResultId) :
    (Call.deleteKeyResult id).Undone carry records m := by
  intro e he
  simp only [carry, deleteKeyResult] at he ⊢
  split at he
  · cases he
  · rename_i hmissing
    rw [if_neg hmissing]

theorem undone_addComment (target : CommentTarget) (text : String) :
    (Call.addComment target text).Undone carry records m := by
  intro e he
  simp only [carry, addComment] at he ⊢
  split at he
  · rfl
  · cases he

theorem undone_move (item : SequencedItem) (direction : Direction) :
    (Call.move item direction).Undone carry records m := by
  intro e he
  cases item with
  | goal id asTeam =>
    simp only [carry, move] at he ⊢
    split at he
    · rfl
    · split at he <;> cases he
  | keyResult id =>
    simp only [carry, move] at he ⊢
    split at he
    · rfl
    · cases he
  | period id =>
    simp only [carry, move] at he ⊢
    split at he
    · rfl
    · cases he

/-- A call that fails changes no record. -/
theorem undone_carry (c : Call) : c.Undone carry records m := by
  cases c with
  | createPeriod name startDate endDate => exact m.undone_createPeriod name startDate endDate
  | updateGoal id draft => exact m.undone_updateGoal id draft
  | deleteGoal id => exact m.undone_deleteGoal id
  | replaceShares plan => exact m.undone_replaceShares plan
  | promote share => exact m.undone_promote share
  | setTeamWeight id team weight => exact m.undone_setTeamWeight id team weight
  | createKeyResult goal draft => exact m.undone_createKeyResult goal draft
  | updateKeyResult id draft => exact m.undone_updateKeyResult id draft
  | setWeights goal weights => exact m.undone_setWeights goal weights
  | recordProgress id update => exact m.undone_recordProgress id update
  | addCheckpoint id draft => exact m.undone_addCheckpoint id draft
  | deleteKeyResult id => exact m.undone_deleteKeyResult id
  | addComment target text => exact m.undone_addComment target text
  | move item direction => exact m.undone_move item direction
  | _ => intro e he; cases he

end Undone

/-! ### The commands -/

/-- Every call to the store in memory does all or nothing. -/
theorem allOrNothing (m : Memory) : AllOrNothing carry records m where
  reads c hc := by
    have h := touched_carry c m
    rw [hc] at h
    exact h
  undone c _ := m.undone_carry c
  deleteGoal _ g _ := m.undone_deleteGoal g.id
  deleteKeyResult _ k _ := m.undone_deleteKeyResult k.id
  createGoal _ _ _ _ _ _ _ _ h := by cases h

/-- A change of the weight of a goal for a team takes no goal away. -/
theorem contains_goals_setTeamWeight {m : Memory} {id : GoalId} (h : m.goals.contains id = true)
    (team : TeamId) (weight : Weight) :
    (m.setTeamWeight id team weight).2.goals.contains id = true := by
  unfold setTeamWeight
  split
  · split
    · exact Table.contains_insert_of_contains h
    · rwa [setShareWeight_goals]
  · rwa [setShareWeight_goals]

/-- In an edit on behalf of a team with a share the second write does not fail: the goal is still there.
-/
theorem undone_edit {m : Memory} (h : m.OwnKeys) (id : GoalId) (asTeam : Option TeamId)
    (draft : GoalDraft) : (Goals.update id asTeam draft).Undone carry records m := by
  refine undone_update m.allOrNothing ?_
  intro draft' goal m' _ hgoal hweight e he
  have hget : m.goals.get? id = some goal := by
    simpa only [carry, Except.ok.injEq] using hgoal
  have hthere := contains_goals_setTeamWeight (Table.contains_of_get? hget)
    (asTeam.getD goal.team) draft'.weight
  have hm' : (m.setTeamWeight goal.id (asTeam.getD goal.team) draft'.weight).2 = m' :=
    congrArg Prod.snd hweight
  rw [h.goals id goal hget] at hm' he
  rw [hm'] at hthere
  obtain ⟨goal', hget'⟩ := Table.contains_iff.1 hthere
  simp only [carry, updateGoal, hget'] at he
  cases he

/-- **A command that fails changes no record**: in a store that can come about, and in any other that
has its records under their own keys.  Only the last identifier that was given may be another. -/
theorem unchanged_of_refused {m : Memory} (h : m.Reachable ∨ m.OwnKeys) (c : Command) {e : Failure}
    (he : (c.program.run carry m).1 = .error e) :
    ∃ lastId, (c.program.run carry m).2 = { m with lastId } := by
  have hkeys : m.OwnKeys := h.elim Reachable.ownKeys id
  refine eq_of_records (Command.undone m.allOrNothing c ?_ e he)
  intro id asTeam draft _
  exact undone_edit hkeys id asTeam draft

/-- A store with two teams and a goal of the first. -/
def soleGoal : Memory :=
  let teams := ((empty.addTeam "Products" .unit none).2.addTeam "Search" .team (some 1)).2
  let start := (teams.createPeriod "2026 Q1" ⟨2026, 1, 1⟩ ⟨2026, 3, 31⟩).2
  let draft : GoalDraft := ⟨"Grow", "", .p0, ⟨65, by decide⟩, .delivery, .stability, ""⟩
  ((Command.createGoal 1 3 draft).program.run carry start).2

/-- The second team has no share in the goal that it would edit: the first of the two writes fails. -/
theorem unchanged_of_refused_without_share :
    let draft : GoalDraft := ⟨"Shrink", "", .p0, ⟨5, by decide⟩, .delivery, .stability, ""⟩
    let after := (Command.updateGoal 4 (some 2) draft).program.run carry soleGoal
    soleGoal.goals.keys = [4] ∧ after.1 = .error (.notCarried 4 2) ∧
      (soleGoal.Reachable ∨ soleGoal.OwnKeys) ∧ ∃ lastId, after.2 = { soleGoal with lastId } := by
  intro draft after
  have hreachable : soleGoal.Reachable ∨ soleGoal.OwnKeys :=
    .inl ((((Reachable.empty.addTeam _ _ _).addTeam _ _ _).createPeriod _ _ _).run _)
  have hfails : after.1 = .error (.notCarried 4 2) := by decide +kernel
  exact ⟨by decide +kernel, hfails, hreachable,
    unchanged_of_refused hreachable (.updateGoal 4 (some 2) draft) hfails⟩

end Objectives.Memory
