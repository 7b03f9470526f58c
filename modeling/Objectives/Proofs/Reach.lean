/- # What becomes of a database

What goes along with whatever a call does.  Most calls have nothing to do with key results; a statement
of them changes no measurement, and neither the kind nor the weight of a key result.

Main definitions:

* `Rows.Sparing` — changes of rows that spare measurements;
* `Call.sparing` — the calls that change rows in no other way;
* `Contents.Reachable` — the databases that can come about.

Main results:

* `Contents.Course.along_sparing` — **what goes along with changes that spare measurements goes along
  with a sparing call**;
* `Contents.Course.along_session` — **what goes along with any change goes along with any call**.
-/

import Objectives.Database.Teams
import Objectives.Proofs.Queries
import Objectives.Store.Program

set_option relaxedAutoImplicit false
set_option autoImplicit false

namespace Objectives

/-! ### Changes of rows -/

namespace Rows

/-- What the rows say about how key results are measured: their kinds and weights, and the relations
that their measurements lie in. -/
def measures (rows : Rows) : (KeyResultId → Option (String × Int)) × Table StageId StageRow ×
    Table KeyResultId (MetricRange Double) × Table CheckpointId CheckpointRow ×
    Table KeyResultId (MetricRange Double) × Table KeyResultId Bool :=
  (fun id => (rows.keyResults.get? id).map fun row => (row.kind, row.weight), rows.stages,
    rows.percentRanges, rows.checkpoints, rows.linearRanges, rows.flags)

/-- The change leaves what the rows say about how key results are measured. -/
def Sparing (f : Rows → Rows) : Prop := ∀ rows, (f rows).measures = rows.measures

/-- The key that orders a row has nothing to do with how a key result is measured. -/
theorem sparing_setOrder (relation : OrderedRelation) (id order : Int) :
    Sparing (relation.setOrder id order) := by
  intro rows
  cases relation with
  | goals => rfl
  | keyResults =>
    refine congrArg (Prod.mk · _) (funext fun other => ?_)
    rw [OrderedRelation.setOrder, Table.get?_modify]
    split
    · rw [Option.map_map]
      rfl
    · rfl
  | periods => rfl

end Rows

/-- The call has nothing to do with the measurements, the kinds and the weights of key results. -/
def Call.sparing : Call → Bool
  | deleteGoal _ | createKeyResult .. | updateKeyResult .. | setWeights .. | recordProgress ..
  | addCheckpoint .. | deleteKeyResult _ => false
  | _ => true

namespace Contents.Course

open Effect (Along)

open Session

variable {R : Contents → Contents → Prop}

/-! ### Calls that spare measurements -/

section Sparing

variable (h : Course R Rows.Sparing)

include h

theorem along_createPeriod (name : String) (startDate endDate : Date) :
    Along R (createPeriod name startDate endDate) := by
  refine h.bind (h.along_lift _) fun draft => adapt ?_ _
  refine h.bind (h.along_reach _) fun _ => h.bind (h.along_plainTexts _) fun _ => ?_
  refine h.bind (h.along_takeId _) fun id => h.bind h.along_rows fun rows => ?_
  refine h.bind (h.along_orderAfter _) fun order => ?_
  exact h.bind (h.along_change fun _ => rfl) fun _ => h.pure _

theorem along_setStatus (team : TeamId) (period : PeriodId) (status : Status) :
    Along R (setStatus team period status) := by
  refine adapt ?_ _
  refine h.bind (h.along_reach _) fun _ => h.bind h.along_rows fun rows => ?_
  refine h.bind (h.along_refer _ _ _) fun _ => h.bind (h.along_refer _ _ _) fun _ => ?_
  exact h.along_change fun _ => rfl

theorem along_createGoal (team : TeamId) (period : PeriodId) (draft : GoalDraft) :
    Along R (createGoal team period draft) := by
  refine adapt ?_ _
  refine h.bind (h.along_reach _) fun _ => h.bind (h.along_plainTexts _) fun _ => ?_
  refine h.bind (h.along_takeId _) fun id => h.bind h.along_rows fun rows => ?_
  refine h.bind (h.along_orderAfter _) fun order => h.bind (h.along_refer _ _ _) fun _ => ?_
  refine h.bind (h.along_refer _ _ _) fun _ => ?_
  exact h.bind (h.along_change fun _ => rfl) fun _ => h.pure _

theorem along_updateGoal (id : GoalId) (draft : GoalDraft) : Along R (updateGoal id draft) := by
  refine h.unlessFound (adapt ?_ _) _
  refine h.bind (h.along_reach _) fun _ => h.bind (h.along_plainTexts _) fun _ => ?_
  refine h.bind h.along_rows fun rows => ?_
  exact h.bind (h.along_change fun _ => rfl) fun _ => h.pure _

theorem along_setOwner (id : GoalId) (owner : ShareTarget) : Along R (setOwner id owner) := by
  refine h.unlessFound (adapt ?_ _) _
  refine h.bind (h.along_reach _) fun _ => h.bind h.along_rows fun rows => ?_
  split
  · exact h.pure _
  · split
    · exact h.bind (h.along_change fun _ => rfl) fun _ => h.pure _
    · refine h.bind (h.along_orderAfter _) fun order => h.bind (h.along_refer _ _ _) fun _ => ?_
      exact h.bind (h.along_change fun _ => rfl) fun _ => h.pure _

theorem along_removeShare (goal : GoalId) (team : TeamId) : Along R (removeShare goal team) := by
  refine adapt ?_ _
  exact h.bind (h.along_reach _) fun _ => h.along_change fun _ => rfl

theorem along_upsertShare (goal : GoalId) (target : ShareTarget) :
    Along R (upsertShare goal target) := by
  refine h.bind (h.along_reach _) fun _ => h.bind h.along_rows fun rows => ?_
  dsimp only
  split
  · exact h.pure _
  · exact h.along_change fun _ => rfl
  · exact h.bind (h.along_refer _ _ _) fun _ => h.along_change fun _ => rfl

theorem along_replaceShares (plan : SharePlan) : Along R (replaceShares plan) := by
  refine h.transaction (h.bind (h.along_setOwner _ _) fun _ => h.bind (adapt ?_ _) fun _ => ?_)
  · exact h.bind (h.along_reach _) fun _ => h.along_change fun _ => rfl
  · exact h.forEach (fun target => adapt (h.along_upsertShare plan.goal target) _) _

theorem along_promote (share : Share) : Along R (promote share) :=
  h.transaction (h.bind (h.along_setOwner _ _) fun _ => h.along_removeShare _ _)

theorem along_setTeamWeight (goal : GoalId) (team : TeamId) (weight : Weight) :
    Along R (setTeamWeight goal team weight) := by
  refine h.bind (adapt ?_ _) fun owned => ?_
  · refine h.bind (h.along_reach _) fun _ => h.bind h.along_rows fun rows => ?_
    split
    · split
      · exact h.bind (h.along_change fun _ => rfl) fun _ => h.pure _
      · exact h.pure _
    · exact h.pure _
  · split
    · exact h.pure _
    · refine h.unlessFound (adapt ?_ _) _
      refine h.bind (h.along_reach _) fun _ => h.bind h.along_rows fun rows => ?_
      split
      · exact h.bind (h.along_change fun _ => rfl) fun _ => h.pure _
      · exact h.pure _

theorem along_insertCommentRow (relation : Relation) (column : String) (isThere : Rows → Bool)
    {add : CommentId → Rows → Rows} (hadd : ∀ id, Rows.Sparing (add id)) (text : String) :
    Along R (insertCommentRow relation column isThere add text) := by
  refine h.bind (h.along_reach _) fun _ => h.bind (h.along_plainTexts _) fun _ => ?_
  refine h.bind (h.along_takeId _) fun id => h.bind h.along_rows fun rows => ?_
  refine h.bind (h.along_refer _ _ _) fun _ => ?_
  exact h.bind (h.along_change (hadd id)) fun _ => h.pure _

theorem along_addComment (target : CommentTarget) (text : String) :
    Along R (addComment target text) := by
  refine h.bind (adapt ?_ _) fun _ => h.pure _
  cases target with
  | goal id => exact h.along_insertCommentRow _ _ _ (fun _ _ => by rfl) text
  | keyResult id => exact h.along_insertCommentRow _ _ _ (fun _ _ => by rfl) text

theorem along_setOrder (relation : OrderedRelation) (id order : Int) :
    Along R (setOrder relation id order) :=
  adapt (h.bind (h.along_reach _) fun _ => h.along_change (Rows.sparing_setOrder relation id order)) _

theorem along_lock (item : SequencedItem) : Along R (lock item) := by
  have hrow (context : String) (relation : OrderedRelation) (id : Int) (missing : Failure) :
      Along R (lockRow context relation id missing) :=
    h.bind (h.along_query _ _) fun _ => h.bind (h.along_expect _ _) fun _ => h.pure _
  cases item with
  | goal id asTeam =>
    refine h.bind (hrow _ _ _ _) fun row => ?_
    split <;> exact h.pure _
  | keyResult id => exact h.bind (hrow _ _ _ _) fun _ => h.pure _
  | period id => exact h.bind (hrow _ _ _ _) fun _ => h.pure _

theorem along_move (item : SequencedItem) (direction : Direction) :
    Along R (move item direction) := by
  refine h.transaction (h.bind (h.along_lock item) fun locked => ?_)
  split
  · exact h.pure _
  · refine h.bind (h.bind (h.along_query _ _) fun _ => h.pure _) fun neighbor => ?_
    split
    · exact h.pure _
    · refine h.bind (h.along_setOrder _ _ _) fun _ => ?_
      exact h.bind (h.along_setOrder _ _ _) fun _ => h.pure _

theorem along_insertTeam (name : String) (type : TeamType) (parent : Option TeamId) :
    Along R (Statement.insertTeam name type parent) := by
  refine h.bind (h.along_reach _) fun _ => h.bind (h.along_plainTexts _) fun _ => ?_
  refine h.bind (h.along_takeId _) fun id => h.bind h.along_rows fun rows => ?_
  refine h.bind (h.along_refer _ _ _) fun _ => ?_
  exact h.bind (h.along_change fun _ => rfl) fun _ => h.pure _

theorem along_changeParent (team : TeamId) (parent : Option TeamId) :
    Along R (Statement.changeParent team parent) := by
  refine h.bind (h.along_reach _) fun _ => h.bind h.along_rows fun rows => ?_
  split
  · exact h.bind (h.along_refer _ _ _) fun _ => h.along_change fun _ => rfl
  · exact h.pure _

/-- **What goes along with changes that spare measurements goes along with a sparing call.** -/
theorem along_sparing {c : Call} (hc : c.sparing = true) : Along R (Session.ofCall c) := by
  by_cases hreads : c.subject = .nothing
  · intro db
    rw [session_run_snd hreads]
    exact h.refl db
  · cases c with
    | createPeriod name startDate endDate => exact h.along_createPeriod name startDate endDate
    | setStatus team period status => exact h.along_setStatus team period status
    | createGoal team period draft => exact h.along_createGoal team period draft
    | updateGoal id draft => exact h.along_updateGoal id draft
    | replaceShares plan => exact h.along_replaceShares plan
    | removeShare goal team => exact h.along_removeShare goal team
    | promote share => exact h.along_promote share
    | setTeamWeight goal team weight => exact h.along_setTeamWeight goal team weight
    | addComment target text => exact h.along_addComment target text
    | move item direction => exact h.along_move item direction
    | _ => first | exact absurd rfl hreads | cases hc

end Sparing

/-! ### The other calls -/

section Any

variable (h : Course R fun _ => True)

include h

theorem along_deleteGoal (id : GoalId) : Along R (deleteGoal id) := by
  refine h.unlessFound (adapt ?_ _) _
  refine h.bind (h.along_reach _) fun _ => h.bind h.along_rows fun rows => ?_
  exact h.bind (h.along_change trivial) fun _ => h.pure _

theorem along_insertStages (keyResult : KeyResultId) (place : Int) (drafts : List StageDraft) :
    Along R (insertStages keyResult place drafts) := by
  induction drafts generalizing place with
  | nil => exact h.pure _
  | cons draft rest ih =>
    refine h.bind (adapt ?_ _) fun _ => ih _
    refine h.bind (h.along_reach _) fun _ => h.bind (h.along_plainTexts _) fun _ => ?_
    refine h.bind (h.along_takeId _) fun _ => ?_
    refine h.bind (h.of_leaves (Statement.leaves_require _ _ _)) fun _ => ?_
    exact h.along_change trivial

theorem along_insertMeasurement (id : KeyResultId) (draft : MeasurementDraft) :
    Along R (insertMeasurement id draft) := by
  cases draft with
  | project stages => exact h.along_insertStages id 1 stages
  | percent range => exact adapt (h.bind (h.along_reach _) fun _ => h.along_change trivial) _
  | boolean done => exact adapt (h.bind (h.along_reach _) fun _ => h.along_change trivial) _
  | linear range =>
    refine adapt (h.bind (h.along_reach _) fun _ => ?_) _
    have hread : Along R (read : Statement Schema) := h.of_leaves fun _ => rfl
    refine h.bind hread fun schema => h.bind h.along_rows fun rows => ?_
    refine h.bind (h.along_change trivial) fun _ => ?_
    split
    · exact h.along_change trivial
    · exact h.pure _

theorem along_loadWritten (id : KeyResultId) : Along R (loadWritten id) := by
  refine h.bind ?_ fun _ => h.along_expect _ _
  intro db
  rw [loadKeyResult_run]
  exact h.refl db

theorem along_createKeyResult (goal : GoalId) (draft : KeyResultDraft) :
    Along R (createKeyResult goal draft) := by
  refine h.transaction (h.bind (h.along_query _ _) fun rows => ?_)
  split
  · refine h.bind (adapt ?_ _) fun id => ?_
    · refine h.bind (h.along_reach _) fun _ => h.bind (h.along_plainTexts _) fun _ => ?_
      refine h.bind (h.along_takeId _) fun _ => h.bind h.along_rows fun _ => ?_
      refine h.bind (h.along_orderAfter _) fun _ => ?_
      exact h.bind (h.along_change trivial) fun _ => h.pure _
    · exact h.bind (h.along_insertMeasurement _ _) fun _ => h.along_loadWritten _
  · exact h.throw _

theorem along_clear (relation : Relation) (f : Rows → Rows) : Along R (clear relation f) :=
  adapt (h.bind (h.along_reach _) fun _ => h.along_change trivial) _

theorem along_clearMeasurement (id : KeyResultId) (keepCheckpoints : Bool) :
    Along R (clearMeasurement id keepCheckpoints) := by
  refine h.bind (h.along_clear _ _) fun _ => h.bind (h.along_clear _ _) fun _ => ?_
  refine h.bind (h.along_clear _ _) fun _ => h.bind (h.along_clear _ _) fun _ => ?_
  split
  · exact h.pure _
  · exact h.along_clear _ _

theorem along_updateKeyResult (id : KeyResultId) (draft : KeyResultDraft) :
    Along R (updateKeyResult id draft) := by
  refine h.transaction (h.bind (h.along_query _ _) fun rows => ?_)
  refine h.bind (h.along_expect _ _) fun row => h.bind (h.along_lift _) fun previous => ?_
  refine h.bind (adapt ?_ _) fun _ => ?_
  · refine h.bind (h.along_reach _) fun _ => h.bind (h.along_plainTexts _) fun _ => ?_
    exact h.along_change trivial
  · refine h.bind (h.along_clearMeasurement _ _) fun _ => ?_
    exact h.bind (h.along_insertMeasurement _ _) fun _ => h.along_loadWritten _

theorem along_setWeights (goal : GoalId) (weights : List (KeyResultId × Weight)) :
    Along R (setWeights goal weights) := by
  refine h.transaction (h.forEach (fun item => ?_) _)
  refine h.unlessFound (adapt ?_ _) _
  refine h.bind (h.along_reach _) fun _ => h.bind h.along_rows fun rows => ?_
  split
  · split
    · exact h.bind (h.along_change trivial) fun _ => h.pure _
    · exact h.pure _
  · exact h.pure _

theorem along_changeCurrent (relation : Relation)
    (ranges : Rows → Table KeyResultId (MetricRange Double))
    (set : Table KeyResultId (MetricRange Double) → Rows → Rows) (id : KeyResultId)
    (value : Double) : Along R (changeCurrent relation ranges set id value) := by
  refine h.bind (h.along_reach _) fun _ => h.bind h.along_rows fun rows => ?_
  exact h.bind (h.along_change trivial) fun _ => h.pure _

theorem along_writeProgress (id : KeyResultId) (update : ProgressUpdate) :
    Along R (writeProgress id update) := by
  cases update with
  | stage stage done =>
    refine adapt (h.bind (h.along_reach _) fun _ => h.bind h.along_rows fun rows => ?_) _
    split
    · split
      · exact h.bind (h.along_change trivial) fun _ => h.pure _
      · exact h.pure _
    · exact h.pure _
  | percentCurrent value => exact adapt (h.along_changeCurrent _ _ _ _ _) _
  | linearCurrent value => exact adapt (h.along_changeCurrent _ _ _ _ _) _
  | boolean done =>
    refine adapt (h.bind (h.along_reach _) fun _ => h.bind h.along_rows fun rows => ?_) _
    exact h.bind (h.along_change trivial) fun _ => h.pure _

theorem along_recordProgress (id : KeyResultId) (update : ProgressUpdate) :
    Along R (recordProgress id update) := by
  refine h.transaction (h.bind (h.along_writeProgress id update) fun found => ?_)
  split
  · exact adapt (h.along_reach _) _
  · exact h.throw _

theorem along_addCheckpoint (id : KeyResultId) (draft : CheckpointDraft) :
    Along R (addCheckpoint id draft) := by
  refine h.bind (adapt ?_ _) fun checkpoint => ?_
  · refine h.bind (h.along_reach _) fun _ => h.bind h.along_rows fun rows => ?_
    split
    · split
      · refine h.bind (h.along_takeId _) fun _ => ?_
        exact h.bind (h.along_change trivial) fun _ => h.pure _
      · exact h.pure _
    · exact h.pure _
  · exact h.bind (h.along_expect _ _) fun _ => h.pure _

theorem along_deleteKeyResult (id : KeyResultId) : Along R (deleteKeyResult id) := by
  refine h.unlessFound (adapt ?_ _) _
  refine h.bind (h.along_reach _) fun _ => h.bind h.along_rows fun rows => ?_
  exact h.bind (h.along_change trivial) fun _ => h.pure _

/-- What goes along with any change goes along with any call. -/
theorem along_session (c : Call) : Along R (Session.ofCall c) := by
  cases hc : c.sparing with
  | true => exact (h.mono fun _ _ => trivial).along_sparing hc
  | false =>
    cases c with
    | deleteGoal id => exact h.along_deleteGoal id
    | createKeyResult goal draft => exact h.along_createKeyResult goal draft
    | updateKeyResult id draft => exact h.along_updateKeyResult id draft
    | setWeights goal weights => exact h.along_setWeights goal weights
    | recordProgress id update => exact h.along_recordProgress id update
    | addCheckpoint id draft => exact h.along_addCheckpoint id draft
    | deleteKeyResult id => exact h.along_deleteKeyResult id
    | _ => cases hc

end Any

end Contents.Course

/-! ### Databases that can come about -/

namespace Contents

open Effect (Along)

theorem along_attempt {α : Type} {R : Contents → Contents → Prop} {statement : Statement α}
    (h : Along R statement) (db : Contents) : R db (statement.attempt .standard db).2 := by
  have hstatement := h db
  unfold Statement.attempt
  cases hrun : statement .standard db with
  | mk answer db' =>
    rw [hrun] at hstatement
    cases answer <;> exact hstatement

/-- The database can come about from one without rows, by looking after teams and by calls. -/
inductive Reachable : Contents → Prop
  | empty : Reachable .empty
  | addTeam {db : Contents} (h : Reachable db) (name : String) (type : TeamType)
      (parent : Option TeamId) : Reachable (db.addTeam name type parent).2
  | setTeamParent {db : Contents} (h : Reachable db) (team : TeamId) (parent : Option TeamId) :
      Reachable (db.setTeamParent team parent).2
  | carry {db : Contents} (h : Reachable db) (c : Call) : Reachable (Contents.carry c db).2

/-- A program that is carried out without interference. -/
theorem Reachable.run {db : Contents} (h : db.Reachable) {α : Type} (p : Program α) :
    (p.run Contents.carry db).2.Reachable := by
  induction p generalizing db with
  | done a => exact h
  | fail e => exact h
  | call c next ih =>
    have hcall := h.carry c
    rw [Program.run]
    split <;> rename_i hrun <;> rw [hrun] at hcall
    · exact ih _ hcall
    · exact hcall

end Contents

end Objectives
