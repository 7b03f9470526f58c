/- # Calls to a store

A store keeps the records.  All that is asked of it is a call, which it carries out in one step: a
call of one client never runs between the parts of a call of another.

Main definitions:

* `Call` — the calls;
* `Call.Reply` — what a call answers when it succeeds;
* `Answer` — the reply to a call, or why it fails.
-/

import Objectives.Goal.Comment
import Objectives.Goal.Share
import Objectives.KeyResult.Basic
import Objectives.Period.Basic
import Objectives.Sequence

set_option relaxedAutoImplicit false
set_option autoImplicit false

namespace Objectives

/-- A call to a store. -/
inductive Call
  /-- All teams. -/
  | teams
  | team (id : TeamId)
  /-- Adds a period after all others. -/
  | createPeriod (name : String) (startDate endDate : Date)
  /-- All periods, in their order. -/
  | periods
  | period (id : PeriodId)
  /-- The last period, in their order, that a day belongs to. -/
  | periodOn (day : Date)
  | status (team : TeamId) (period : PeriodId)
  | setStatus (team : TeamId) (period : PeriodId) (status : Status)
  /-- The stored statuses of a period, by team. -/
  | statuses (period : PeriodId)
  /-- Adds a goal after the others of its team and period. -/
  | createGoal (team : TeamId) (period : PeriodId) (draft : GoalDraft)
  | goal (id : GoalId)
  /-- Sets the editable fields of a goal, its weight for the owner included. -/
  | updateGoal (id : GoalId) (draft : GoalDraft)
  /-- Removes a goal with everything on it. -/
  | deleteGoal (id : GoalId)
  /-- The goals that a team carries in a period, in their order. -/
  | goalsOf (team : TeamId) (period : PeriodId)
  /-- The shares in a goal, by team. -/
  | shares (goal : GoalId)
  /-- Sets the owner of a goal and the teams with a share. -/
  | replaceShares (plan : SharePlan)
  | removeShare (goal : GoalId) (team : TeamId)
  /-- Makes the team of a share the owner, at the weight of its share. -/
  | promote (share : Share)
  /-- Sets the weight of a goal for a team. -/
  | setTeamWeight (goal : GoalId) (team : TeamId) (weight : Weight)
  /-- Adds a key result after the others of its goal. -/
  | createKeyResult (goal : GoalId) (draft : KeyResultDraft)
  | keyResult (id : KeyResultId)
  /-- The key results of a goal, in their order. -/
  | keyResultsOf (goal : GoalId)
  /-- Sets the editable fields of a key result; checkpoints stay if it was and is of the kind that
  has them. -/
  | updateKeyResult (id : KeyResultId) (draft : KeyResultDraft)
  /-- Sets the weights of key results of one goal, all or none. -/
  | setWeights (goal : GoalId) (weights : List (KeyResultId × Weight))
  | recordProgress (id : KeyResultId) (update : ProgressUpdate)
  | addCheckpoint (id : KeyResultId) (draft : CheckpointDraft)
  | deleteKeyResult (id : KeyResultId)
  | addComment (target : CommentTarget) (text : String)
  /-- The comments on a target, the newest first. -/
  | comments (target : CommentTarget)
  /-- Moves an item by one place among its siblings. -/
  | move (item : SequencedItem) (direction : Direction)
  deriving DecidableEq, Repr

namespace Call

/-- What a call answers when it succeeds. -/
@[reducible] def Reply : Call → Type
  | teams => List Team
  | team _ => Option Team
  | createPeriod .. => Period
  | periods => List Period
  | period _ => Option Period
  | periodOn _ => Option Period
  | status .. => Status
  | setStatus .. => Unit
  | statuses _ => Table TeamId Status
  | createGoal .. => Goal
  | goal _ => Option Goal
  | updateGoal .. => Unit
  | deleteGoal _ => Unit
  | goalsOf .. => List TeamGoal
  | shares _ => List Share
  | replaceShares _ => Unit
  | removeShare .. => Unit
  | promote _ => Unit
  | setTeamWeight .. => Unit
  | createKeyResult .. => KeyResult
  | keyResult _ => Option KeyResult
  | keyResultsOf _ => List KeyResult
  | updateKeyResult .. => KeyResult
  | setWeights .. => Unit
  | recordProgress .. => Unit
  | addCheckpoint .. => Checkpoint
  | deleteKeyResult _ => Unit
  | addComment .. => Comment
  | comments _ => List Comment
  | move .. => MoveOutcome

end Call

/-- The reply to a call, or why the call fails. -/
abbrev Answer (c : Call) : Type := Except Failure c.Reply

/-- How a store with states `σ` carries out a call. -/
abbrev Carries (σ : Type) : Type := (c : Call) → σ → Answer c × σ

end Objectives
