/- # Commands

All that changes the records on request.

Main definitions:

* `Statuses.set` — setting the status of a team in a period;
* `Command` — the commands;
* `Command.Outcome`, `Command.program` — what a command answers, and how it is carried out.
-/

import Objectives.Command.KeyResults

set_option relaxedAutoImplicit false
set_option autoImplicit false

namespace Objectives

/-- A status that was set, and the one before it. -/
structure StatusChanged where
  previous : Status
  status : Status
  deriving DecidableEq, Repr

namespace Statuses

/-- Sets the status of a team in a period. -/
def set (team : TeamId) (period : PeriodId) (status : Status) : Program StatusChanged := do
  let _ ← requireTeam team
  let _ ← requirePeriod period
  let previous ← Program.ask (.status team period)
  let status ← Program.check (Lifecycle.move previous status)
  Program.ask (.setStatus team period status)
  return ⟨previous, status⟩

end Statuses

/-- A request to change the records. -/
inductive Command
  | createGoal (team : TeamId) (period : PeriodId) (draft : GoalDraft)
  | updateGoal (goal : GoalId) (asTeam : Option TeamId) (draft : GoalDraft)
  | deleteGoal (goal : GoalId) (asTeam : Option TeamId)
  | shareGoal (goal : GoalId) (targets : List ShareTarget)
  | createKeyResult (goal : GoalId) (draft : KeyResultDraft)
  | updateKeyResult (keyResult : KeyResultId) (draft : KeyResultDraft)
  | setWeights (goal : GoalId) (weights : List (KeyResultId × Weight))
  | recordProgress (keyResult : KeyResultId) (update : ProgressUpdate)
  | addCheckpoint (keyResult : KeyResultId) (draft : CheckpointDraft)
  | deleteKeyResult (keyResult : KeyResultId)
  | addComment (target : CommentTarget) (text : String)
  | setStatus (team : TeamId) (period : PeriodId) (status : Status)
  | move (item : SequencedItem) (direction : Direction)
  deriving DecidableEq, Repr

namespace Command

/-- What a command answers when it succeeds. -/
@[reducible] def Outcome : Command → Type
  | createGoal .. => GoalCreated
  | updateGoal .. => Goal
  | deleteGoal .. => GoalDeletion
  | shareGoal .. => GoalShared
  | createKeyResult .. => KeyResult
  | updateKeyResult .. => KeyResult
  | setWeights .. => Unit
  | recordProgress .. => ProgressRecorded
  | addCheckpoint .. => Checkpoint
  | deleteKeyResult _ => Unit
  | addComment .. => Comment
  | setStatus .. => StatusChanged
  | move .. => MoveOutcome

/-- How a command is carried out. -/
def program : (c : Command) → Program c.Outcome
  | createGoal team period draft => Goals.create team period draft
  | updateGoal goal asTeam draft => Goals.update goal asTeam draft
  | deleteGoal goal asTeam => Goals.delete goal asTeam
  | shareGoal goal targets => Goals.share goal targets
  | createKeyResult goal draft => KeyResults.create goal draft
  | updateKeyResult keyResult draft => KeyResults.update keyResult draft
  | setWeights goal weights => KeyResults.setWeights goal weights
  | recordProgress keyResult update => KeyResults.recordProgress keyResult update
  | addCheckpoint keyResult draft => KeyResults.addCheckpoint keyResult draft
  | deleteKeyResult keyResult => KeyResults.delete keyResult
  | addComment target text => Comments.add target text
  | setStatus team period status => Statuses.set team period status
  | move item direction => Program.ask (.move item direction)

end Command

end Objectives
