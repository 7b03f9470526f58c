/- # Commands on key results

What is done to create, change, weigh, report on and delete key results, and to comment on goals
and key results.  The period must not be closed for the team that owns the goal.

Main definitions:

* `KeyResults.create`, `KeyResults.update`, `KeyResults.setWeights`, `KeyResults.delete` — editing;
* `KeyResults.recordProgress`, `KeyResults.addCheckpoint` — reporting progress and shaping it;
* `Comments.add` — commenting.
-/

import Objectives.Command.Goals
import Objectives.Progress

set_option relaxedAutoImplicit false
set_option autoImplicit false

namespace Objectives

/-- A key result after a report of progress. -/
structure ProgressRecorded where
  keyResult : KeyResult
  progress : Percentage
  deriving DecidableEq, Repr

/-- The key result of an identifier, with its goal. -/
def requireKeyResult (id : KeyResultId) : Program (KeyResult × Goal) := do
  let keyResult ← Program.expect (.keyResultMissing id) (← Program.ask (.keyResult id))
  let goal ← requireGoal keyResult.goal
  return (keyResult, goal)

/-- Checks that the owner's period is not closed. -/
def requireOwnerOpen (goal : Goal) (action : Action) : Program Status :=
  requireOpen goal.team goal.period action

namespace KeyResults

/-- Creates a key result of a goal. -/
def create (goal : GoalId) (draft : KeyResultDraft) : Program KeyResult := do
  let draft ← Program.check draft.normalized
  let goal ← requireGoal goal
  let _ ← requireOwnerOpen goal .createKeyResult
  Program.ask (.createKeyResult goal.id draft)

/-- Changes a key result. -/
def update (id : KeyResultId) (draft : KeyResultDraft) : Program KeyResult := do
  let draft ← Program.check draft.normalized
  let (current, goal) ← requireKeyResult id
  let _ ← requireOwnerOpen goal .updateKeyResult
  Program.ask (.updateKeyResult current.id draft)

/-- Sets the weights of some key results of a goal, all or none. -/
def setWeights (goal : GoalId) (weights : List (KeyResultId × Weight)) : Program Unit := do
  let goal ← requireGoal goal
  let _ ← requireOwnerOpen goal .updateKeyResultWeights
  Program.ask (.setWeights goal.id weights)

/-- Deletes a key result with its comments. -/
def delete (id : KeyResultId) : Program Unit := do
  let (keyResult, goal) ← requireKeyResult id
  let _ ← requireOwnerOpen goal .deleteKeyResult
  Program.ask (.deleteKeyResult keyResult.id)

/-- Takes a report of progress. -/
def recordProgress (id : KeyResultId) (update : ProgressUpdate) : Program ProgressRecorded := do
  let (keyResult, goal) ← requireKeyResult id
  let _ ← requireOwnerOpen goal .recordProgress
  let measurement ← Program.lift (keyResult.measurement.record update)
  Program.ask (.recordProgress keyResult.id update)
  let keyResult := { keyResult with measurement }
  return ⟨keyResult, Progress.ofKeyResult keyResult⟩

/-- Adds a checkpoint to a key result of the kind that has them. -/
def addCheckpoint (id : KeyResultId) (draft : CheckpointDraft) : Program Checkpoint := do
  let (keyResult, goal) ← requireKeyResult id
  let kind := keyResult.measurement.kind
  if kind ≠ .percent then Program.fail (.checkpointMismatch keyResult.id kind)
  else
    let _ ← requireOwnerOpen goal .addCheckpoint
    Program.ask (.addCheckpoint keyResult.id draft)

end KeyResults

namespace Comments

/-- The goal that a comment is about in the end. -/
def goalOf : CommentTarget → Program Goal
  | .goal id => requireGoal id
  | .keyResult id => do
    let (_, goal) ← requireKeyResult id
    return goal

/-- Adds a comment. -/
def add (target : CommentTarget) (text : String) : Program Comment := do
  let text ← Program.check (commentText text)
  let goal ← goalOf target
  let _ ← requireOwnerOpen goal .addComment
  Program.ask (.addComment target text)

end Comments

end Objectives
