/- # What a call is about

Every call to the store in memory is about one kind of record, and leaves the tables of the other
kinds as they are.

Main definitions:

* `Subject`, `Call.subject` — the kinds of record, and the kind that a call is about;
* `Memory.Touched` — a store in which at most the tables of one subject differ;
* `Memory.Replaced` — a store in which at most one key result differs, in what may be edited of it;
* `Memory.after` — the store after some calls.

Main results:

* `Memory.touched_carry` — **a call changes at most the tables of its subject**;
* `Memory.Touched.teams`, `Memory.Touched.periods`, `Memory.Touched.statuses`,
  `Memory.Touched.goals_shares`, `Memory.Touched.keyResults_comments`, `Memory.Touched.lastId_le` —
  what that leaves of each table;
* `Memory.after_keeps` — what each of some calls keeps is kept by all of them.
-/

import Objectives.Memory.Calls

set_option relaxedAutoImplicit false
set_option autoImplicit false

namespace Objectives

/-! ### Subjects -/

/-- The kinds of record that a call can change. -/
inductive Subject
  /-- The call only reads. -/
  | nothing
  | periods
  | statuses
  /-- Goals and shares. -/
  | goals
  /-- A goal with all that is on it. -/
  | wholeGoal
  /-- Key results and comments. -/
  | keyResults
  deriving DecidableEq

/-- The kind of record that a call is about. -/
def Call.subject : Call → Subject
  | createPeriod .. | move (.period _) _ => .periods
  | setStatus .. => .statuses
  | createGoal .. | updateGoal .. | replaceShares _ | removeShare .. | promote _
  | setTeamWeight .. | move (.goal ..) _ => .goals
  | deleteGoal _ => .wholeGoal
  | createKeyResult .. | updateKeyResult .. | setWeights .. | recordProgress .. | addCheckpoint ..
  | deleteKeyResult _ | addComment .. | move (.keyResult _) _ => .keyResults
  | _ => .nothing

/-- The goal with another owner, at another weight and under another key. -/
def Goal.givenTo (g : Goal) (owner : ShareTarget) (order : Int) : Goal :=
  { g with team := owner.team, weight := owner.weight, sortOrder := order }

namespace Memory

/-- The store differs from another at most in the tables of a subject; an identifier that was given
stays given. -/
def Touched (m : Memory) : Subject → Memory → Prop
  | .nothing, m' => m' = m
  | .periods, m' => ∃ periods lastId, m.lastId ≤ lastId ∧ m' = { m with periods, lastId }
  | .statuses, m' => ∃ statuses, m' = { m with statuses }
  | .goals, m' => ∃ goals shares lastId,
      m.lastId ≤ lastId ∧ m' = { m with goals, shares, lastId }
  | .wholeGoal, m' => ∃ goals shares keyResults comments,
      m' = { m with goals, shares, keyResults, comments }
  | .keyResults, m' => ∃ keyResults comments lastId,
      m.lastId ≤ lastId ∧ m' = { m with keyResults, comments, lastId }

/-- A store that has not changed is touched at most in any subject. -/
theorem Touched.refl (m : Memory) (subject : Subject) : m.Touched subject m := by
  cases subject with
  | nothing => rfl
  | periods => exact ⟨m.periods, m.lastId, Int.le_refl _, rfl⟩
  | statuses => exact ⟨m.statuses, rfl⟩
  | goals => exact ⟨m.goals, m.shares, m.lastId, Int.le_refl _, rfl⟩
  | wholeGoal => exact ⟨m.goals, m.shares, m.keyResults, m.comments, rfl⟩
  | keyResults => exact ⟨m.keyResults, m.comments, m.lastId, Int.le_refl _, rfl⟩

namespace Touched

variable {m m' : Memory} {subject : Subject}

/-- No call changes the teams. -/
theorem teams (h : m.Touched subject m') : m'.teams = m.teams := by
  cases subject with
  | nothing => obtain rfl := h; rfl
  | periods => obtain ⟨_, _, _, rfl⟩ := h; rfl
  | statuses => obtain ⟨_, rfl⟩ := h; rfl
  | goals => obtain ⟨_, _, _, _, rfl⟩ := h; rfl
  | wholeGoal => obtain ⟨_, _, _, _, rfl⟩ := h; rfl
  | keyResults => obtain ⟨_, _, _, _, rfl⟩ := h; rfl

theorem periods (h : m.Touched subject m') (hs : subject ≠ .periods) :
    m'.periods = m.periods := by
  cases subject with
  | nothing => obtain rfl := h; rfl
  | periods => exact absurd rfl hs
  | statuses => obtain ⟨_, rfl⟩ := h; rfl
  | goals => obtain ⟨_, _, _, _, rfl⟩ := h; rfl
  | wholeGoal => obtain ⟨_, _, _, _, rfl⟩ := h; rfl
  | keyResults => obtain ⟨_, _, _, _, rfl⟩ := h; rfl

theorem statuses (h : m.Touched subject m') (hs : subject ≠ .statuses) :
    m'.statuses = m.statuses := by
  cases subject with
  | nothing => obtain rfl := h; rfl
  | periods => obtain ⟨_, _, _, rfl⟩ := h; rfl
  | statuses => exact absurd rfl hs
  | goals => obtain ⟨_, _, _, _, rfl⟩ := h; rfl
  | wholeGoal => obtain ⟨_, _, _, _, rfl⟩ := h; rfl
  | keyResults => obtain ⟨_, _, _, _, rfl⟩ := h; rfl

/-- Goals and shares are changed by the calls about goals alone. -/
theorem goals_shares (h : m.Touched subject m') (hs : subject ≠ .goals)
    (hs' : subject ≠ .wholeGoal) : m'.goals = m.goals ∧ m'.shares = m.shares := by
  cases subject with
  | nothing => obtain rfl := h; exact ⟨rfl, rfl⟩
  | periods => obtain ⟨_, _, _, rfl⟩ := h; exact ⟨rfl, rfl⟩
  | statuses => obtain ⟨_, rfl⟩ := h; exact ⟨rfl, rfl⟩
  | goals => exact absurd rfl hs
  | wholeGoal => exact absurd rfl hs'
  | keyResults => obtain ⟨_, _, _, _, rfl⟩ := h; exact ⟨rfl, rfl⟩

/-- Key results and comments are changed by the calls about key results, or deleted with their goal. -/
theorem keyResults_comments (h : m.Touched subject m') (hs : subject ≠ .keyResults)
    (hs' : subject ≠ .wholeGoal) : m'.keyResults = m.keyResults ∧ m'.comments = m.comments := by
  cases subject with
  | nothing => obtain rfl := h; exact ⟨rfl, rfl⟩
  | periods => obtain ⟨_, _, _, rfl⟩ := h; exact ⟨rfl, rfl⟩
  | statuses => obtain ⟨_, rfl⟩ := h; exact ⟨rfl, rfl⟩
  | goals => obtain ⟨_, _, _, _, rfl⟩ := h; exact ⟨rfl, rfl⟩
  | wholeGoal => exact absurd rfl hs'
  | keyResults => exact absurd rfl hs

/-- Identifiers are never taken back. -/
theorem lastId_le (h : m.Touched subject m') : m.lastId ≤ m'.lastId := by
  cases subject with
  | nothing => obtain rfl := h; exact Int.le_refl _
  | periods => obtain ⟨_, _, hle, rfl⟩ := h; exact hle
  | statuses => obtain ⟨_, rfl⟩ := h; exact Int.le_refl _
  | goals => obtain ⟨_, _, _, hle, rfl⟩ := h; exact hle
  | wholeGoal => obtain ⟨_, _, _, _, rfl⟩ := h; exact Int.le_refl _
  | keyResults => obtain ⟨_, _, _, hle, rfl⟩ := h; exact hle

end Touched

/-! ### The calls, one by one -/

theorem touched_createPeriod (m : Memory) (name : String) (startDate endDate : Date) :
    m.Touched .periods (m.createPeriod name startDate endDate).2 := by
  have hlast : m.lastId ≤ m.takeId.lastId := by
    simp only [takeId]
    omega
  unfold createPeriod
  simp only
  split
  · exact ⟨_, _, hlast, rfl⟩
  · exact ⟨m.periods, _, hlast, rfl⟩

theorem touched_createGoal (m : Memory) (team : TeamId) (period : PeriodId) (draft : GoalDraft) :
    m.Touched .goals (m.createGoal team period draft).2 := by
  refine ⟨_, m.shares, _, ?_, rfl⟩
  simp only [takeId]
  omega

theorem touched_updateGoal (m : Memory) (id : GoalId) (draft : GoalDraft) :
    m.Touched .goals (m.updateGoal id draft).2 := by
  unfold updateGoal
  split
  · exact Touched.refl m .goals
  · exact ⟨_, m.shares, m.lastId, Int.le_refl _, rfl⟩

theorem touched_deleteGoal (m : Memory) (id : GoalId) :
    m.Touched .wholeGoal (m.deleteGoal id).2 := by
  unfold deleteGoal
  split
  · exact ⟨_, _, _, _, rfl⟩
  · exact Touched.refl m .wholeGoal

/-- A change of the owner fails if there is no such goal.  Else it changes the goal alone: its owner,
its weight and, if the owner is another, its order key. -/
theorem setOwner_cases (m : Memory) (id : GoalId) (owner : ShareTarget) :
    (m.goals.get? id = none ∧ m.setOwner id owner = (.error (.goalMissing id), m)) ∨
      ∃ goal goal' order, m.goals.get? id = some goal ∧
        goal' = { goal with team := owner.team, weight := owner.weight, sortOrder := order } ∧
        (order = if goal.team = owner.team then goal.sortOrder
          else orderAfter (((m.goalsOwned owner.team goal.period).filter fun g => g.id != id).map
            Goal.sortOrder)) ∧
        m.setOwner id owner = (.ok goal', { m with goals := m.goals.insert id goal' }) := by
  unfold setOwner
  split
  · rename_i hget
    exact .inl ⟨hget, rfl⟩
  · rename_i goal hget
    refine .inr ⟨goal, _, _, hget, rfl, rfl, ?_⟩
    simp only [beq_iff_eq]

/-- If there is such a goal, it does change it. -/
theorem exists_setOwner_eq {m : Memory} {id : GoalId} {g : Goal} (hget : m.goals.get? id = some g)
    (owner : ShareTarget) :
    ∃ order, (order = if g.team = owner.team then g.sortOrder
        else orderAfter (((m.goalsOwned owner.team g.period).filter fun other =>
          other.id != id).map Goal.sortOrder)) ∧
      m.setOwner id owner =
        (.ok (g.givenTo owner order),
          { m with goals := m.goals.insert id (g.givenTo owner order) }) := by
  rcases m.setOwner_cases id owner with ⟨hnone, -⟩ | ⟨old, new, order, hold, rfl, horder, hset⟩
  · rw [hget] at hnone
    cases hnone
  · rw [hget, Option.some_inj] at hold
    subst hold
    exact ⟨order, horder, hset⟩

theorem touched_replaceShares (m : Memory) (plan : SharePlan) :
    m.Touched .goals (m.replaceShares plan).2 := by
  unfold replaceShares
  rcases m.setOwner_cases plan.goal plan.owner with
    ⟨-, hset⟩ | ⟨_, _, _, -, -, -, hset⟩
  · rw [hset]
    exact Touched.refl m .goals
  · rw [hset]
    exact ⟨_, _, m.lastId, Int.le_refl _, rfl⟩

theorem touched_promote (m : Memory) (share : Share) :
    m.Touched .goals (m.promote share).2 := by
  unfold promote
  rcases m.setOwner_cases share.goal ⟨share.team, share.weight⟩ with
    ⟨-, hset⟩ | ⟨_, _, _, -, -, -, hset⟩
  · rw [hset]
    exact Touched.refl m .goals
  · rw [hset]
    exact ⟨_, _, m.lastId, Int.le_refl _, rfl⟩

theorem touched_setShareWeight (m : Memory) (goal : GoalId) (team : TeamId) (weight : Weight) :
    m.Touched .goals (m.setShareWeight goal team weight).2 := by
  unfold setShareWeight
  split
  · exact ⟨m.goals, _, m.lastId, Int.le_refl _, rfl⟩
  · exact Touched.refl m .goals

theorem touched_setTeamWeight (m : Memory) (id : GoalId) (team : TeamId) (weight : Weight) :
    m.Touched .goals (m.setTeamWeight id team weight).2 := by
  unfold setTeamWeight
  split
  · split
    · exact ⟨_, m.shares, m.lastId, Int.le_refl _, rfl⟩
    · exact m.touched_setShareWeight id team weight
  · exact m.touched_setShareWeight id team weight

/-- Making a measurement takes identifiers for the stages and changes nothing else. -/
theorem measure_snd (m : Memory) (draft : MeasurementDraft) (kept : List Checkpoint) :
    ∃ lastId, m.lastId ≤ lastId ∧ (m.measure draft kept).2 = { m with lastId } := by
  cases draft with
  | project stages => exact ⟨m.lastId + stages.length, by omega, rfl⟩
  | percent range => exact ⟨m.lastId, Int.le_refl _, rfl⟩
  | linear range => exact ⟨m.lastId, Int.le_refl _, rfl⟩
  | boolean done => exact ⟨m.lastId, Int.le_refl _, rfl⟩

/-- A submitted measurement becomes one of its kind. -/
theorem kind_measure (m : Memory) (draft : MeasurementDraft) (kept : List Checkpoint) :
    (m.measure draft kept).1.kind = draft.kind := by
  cases draft <;> rfl

theorem touched_createKeyResult (m : Memory) (goal : GoalId) (draft : KeyResultDraft) :
    m.Touched .keyResults (m.createKeyResult goal draft).2 := by
  obtain ⟨lastId, hle, hmeasure⟩ := m.takeId.measure_snd draft.measurement []
  unfold createKeyResult
  split
  · simp only [hmeasure]
    simp only [takeId] at hle ⊢
    exact ⟨_, m.comments, lastId, by omega, rfl⟩
  · exact Touched.refl m .keyResults

/-- At most one key result is another than before, and that one is of the same goal, in the same place. -/
inductive Replaced (m : Memory) (id : KeyResultId) : Memory → Prop
  | none {lastId : Int} (hle : m.lastId ≤ lastId) : Replaced m id { m with lastId }
  | one {k k' : KeyResult} {lastId : Int} (hget : m.keyResults.get? id = some k) (hid : k'.id = k.id)
      (hgoal : k'.goal = k.goal) (horder : k'.sortOrder = k.sortOrder) (hle : m.lastId ≤ lastId) :
      Replaced m id { m with keyResults := m.keyResults.insert id k', lastId }

theorem Replaced.touched {m m' : Memory} {id : KeyResultId} (h : m.Replaced id m') :
    m.Touched .keyResults m' := by
  cases h with
  | none hle => exact ⟨m.keyResults, m.comments, _, hle, rfl⟩
  | one _ _ _ _ hle => exact ⟨_, m.comments, _, hle, rfl⟩

theorem Replaced.comments {m m' : Memory} {id : KeyResultId} (h : m.Replaced id m') :
    m'.comments = m.comments := by
  cases h <;> rfl

theorem replaced_updateKeyResult (m : Memory) (id : KeyResultId) (draft : KeyResultDraft) :
    m.Replaced id (m.updateKeyResult id draft).2 := by
  unfold updateKeyResult
  split
  · exact .none (Int.le_refl _)
  · rename_i current hget
    obtain ⟨lastId, hle, hmeasure⟩ :=
      m.measure_snd draft.measurement (keptCheckpoints current.measurement draft.measurement)
    simp only [hmeasure]
    exact .one hget rfl rfl rfl hle

theorem replaced_recordProgress (m : Memory) (id : KeyResultId) (update : ProgressUpdate) :
    m.Replaced id (m.recordProgress id update).2 := by
  unfold recordProgress
  split
  · exact .none (Int.le_refl _)
  · rename_i current hget
    exact .one hget rfl rfl rfl (Int.le_refl _)

/-- An identifier is given whether or not the checkpoint finds a place. -/
theorem replaced_addCheckpoint (m : Memory) (id : KeyResultId) (draft : CheckpointDraft) :
    m.Replaced id (m.addCheckpoint id draft).2 := by
  have hlast : m.lastId ≤ m.takeId.lastId := by
    simp only [takeId]
    omega
  unfold addCheckpoint
  simp only
  split
  · rename_i current hget
    split
    · exact .one hget rfl rfl rfl hlast
    · exact .none hlast
  · exact .none hlast

theorem touched_setWeights (m : Memory) (goal : GoalId) (weights : List (KeyResultId × Weight)) :
    m.Touched .keyResults (m.setWeights goal weights).2 := by
  unfold setWeights
  split
  · exact Touched.refl m .keyResults
  · exact ⟨_, m.comments, m.lastId, Int.le_refl _, rfl⟩

theorem touched_deleteKeyResult (m : Memory) (id : KeyResultId) :
    m.Touched .keyResults (m.deleteKeyResult id).2 := by
  unfold deleteKeyResult
  split
  · exact ⟨_, _, m.lastId, Int.le_refl _, rfl⟩
  · exact Touched.refl m .keyResults

theorem touched_addComment (m : Memory) (target : CommentTarget) (text : String) :
    m.Touched .keyResults (m.addComment target text).2 := by
  unfold addComment
  split
  · exact Touched.refl m .keyResults
  · refine ⟨m.keyResults, _, _, ?_, rfl⟩
    simp only [takeId]
    omega

theorem touched_move (m : Memory) (item : SequencedItem) (direction : Direction) :
    m.Touched (Call.move item direction).subject (m.move item direction).2 := by
  cases item with
  | goal id asTeam =>
    unfold move
    simp only
    split
    · exact Touched.refl m .goals
    · split
      · exact Touched.refl m .goals
      · exact ⟨_, m.shares, m.lastId, Int.le_refl _, rfl⟩
  | keyResult id =>
    unfold move
    simp only
    split
    · exact Touched.refl m .keyResults
    · exact ⟨_, m.comments, m.lastId, Int.le_refl _, rfl⟩
  | period id =>
    unfold move
    simp only
    split
    · exact Touched.refl m .periods
    · exact ⟨_, m.lastId, Int.le_refl _, rfl⟩

/-! ### All calls -/

/-- **A call changes at most the tables of its subject.** -/
theorem touched_carry (c : Call) (m : Memory) : m.Touched c.subject (carry c m).2 := by
  cases c with
  | createPeriod name startDate endDate => exact m.touched_createPeriod name startDate endDate
  | setStatus team period status => exact ⟨_, rfl⟩
  | createGoal team period draft => exact m.touched_createGoal team period draft
  | updateGoal id draft => exact m.touched_updateGoal id draft
  | deleteGoal id => exact m.touched_deleteGoal id
  | replaceShares plan => exact m.touched_replaceShares plan
  | removeShare goal team => exact ⟨m.goals, _, m.lastId, Int.le_refl _, rfl⟩
  | promote share => exact m.touched_promote share
  | setTeamWeight goal team weight => exact m.touched_setTeamWeight goal team weight
  | createKeyResult goal draft => exact m.touched_createKeyResult goal draft
  | updateKeyResult id draft => exact (m.replaced_updateKeyResult id draft).touched
  | setWeights goal weights => exact m.touched_setWeights goal weights
  | recordProgress id update => exact (m.replaced_recordProgress id update).touched
  | addCheckpoint id draft => exact (m.replaced_addCheckpoint id draft).touched
  | deleteKeyResult id => exact m.touched_deleteKeyResult id
  | addComment target text => exact m.touched_addComment target text
  | move item direction => exact m.touched_move item direction
  | teams | team | periods | period | periodOn | status | statuses | goal | goalsOf | shares
  | keyResult | keyResultsOf | comments => rfl

/-! ### Runs of calls -/

/-- The store after some calls, one after the other. -/
def after (m : Memory) (calls : List Call) : Memory :=
  calls.foldl (fun m c => (carry c m).2) m

@[simp] theorem after_nil (m : Memory) : m.after [] = m := rfl

@[simp] theorem after_cons (m : Memory) (c : Call) (calls : List Call) :
    m.after (c :: calls) = (carry c m).2.after calls := rfl

/-- What each of some calls keeps is kept by all of them. -/
theorem after_keeps {P : Memory → Prop} {calls : List Call}
    (h : ∀ c ∈ calls, ∀ m, P m → P (carry c m).2) {m : Memory} (hm : P m) : P (m.after calls) := by
  induction calls generalizing m with
  | nil => exact hm
  | cons c rest ih =>
    have hfirst : P (carry c m).2 := h c (List.mem_cons_self ..) m hm
    exact ih (fun c' hc' => h c' (List.mem_cons_of_mem _ hc')) hfirst

end Memory

end Objectives
