/- # Failures

Why a request cannot be carried out.  A failure is a cause with the data that belongs to it; the
words for it are put together in one place.

Main definitions:

* `Action` — the changes that a closed period forbids;
* `PayloadFault` — what can be wrong with the stored measurement of a key result;
* `Failure` — the causes;
* `Failure.report` — the code, the sentence and the details for a cause.
-/

import Objectives.Identifier
import Objectives.Report
import Objectives.Period.Status
import Objectives.KeyResult.Kind
import Objectives.Database.Relation
import Objectives.Settings.Address

set_option relaxedAutoImplicit false
set_option autoImplicit false

namespace Objectives

/-- A change that the status of a team can forbid. -/
inductive Action
  | createGoal
  | updateGoal
  | deleteGoal
  | createKeyResult
  | updateKeyResult
  | updateKeyResultWeights
  | deleteKeyResult
  | recordProgress
  | addCheckpoint
  | addComment
  deriving DecidableEq, Repr

namespace Action

/-- The name in a refusal. -/
def name : Action → String
  | createGoal => "create_goal"
  | updateGoal => "update_goal"
  | deleteGoal => "delete_goal"
  | createKeyResult => "create_key_result"
  | updateKeyResult => "update_key_result"
  | updateKeyResultWeights => "update_key_result_weights"
  | deleteKeyResult => "delete_key_result"
  | recordProgress => "record_progress"
  | addCheckpoint => "add_checkpoint"
  | addComment => "add_comment"

end Action

/-- What is wrong with the stored measurement of a key result. -/
inductive PayloadFault
  | rowMissing (relation : Relation)
  | flagMissing
  | refused (cause : Violation)
  deriving DecidableEq, Repr

namespace PayloadFault

/-- The words for a fault. -/
def message : PayloadFault → String
  | rowMissing relation => s!"{relation.name} row missing"
  | flagMissing => "boolean payload missing"
  | refused cause => cause.message

end PayloadFault

/-- Why a request cannot be carried out. -/
inductive Failure
  | invalid (cause : Violation)
  | teamMissing (team : TeamId)
  /-- The team that a walk of the hierarchy should start from is not listed. -/
  | rootMissing (team : TeamId)
  | periodMissing (period : PeriodId)
  | goalMissing (goal : GoalId)
  /-- A team that neither owns the goal nor has a share in it would change its weight. -/
  | notCarried (goal : GoalId) (team : TeamId)
  | keyResultMissing (keyResult : KeyResultId)
  | stageMissing (stage : StageId)
  /-- A comment is for a goal that is gone when the comment is written. -/
  | commentedGoalMissing (goal : GoalId)
  /-- A comment is for a key result that is gone when the comment is written. -/
  | commentedKeyResultMissing (keyResult : KeyResultId)
  | periodClosed (period : PeriodId) (team : TeamId) (action : Action)
  | shareTargetLocked (team : TeamId) (status : Status)
  | progressMismatch (update stored : Kind)
  | checkpointMismatch (keyResult : KeyResultId) (stored : Kind)
  | parentCycle (team : TeamId)
  | storage (context : String) (fault : StorageFault)
  | unreadableColumn (column : String) (cause : Violation)
  | unreadablePayload (keyResult : KeyResultId) (fault : PayloadFault)
  /-- The database cannot be reached at the address that is given for it. -/
  | badAddress (fault : AddressFault)
  | vanished (keyResult : KeyResultId)
  deriving DecidableEq, Repr

namespace Failure

/-- The code for a cause. -/
def code : Failure → Code
  | invalid _ => .validationFailed
  | teamMissing _ | rootMissing _ => .teamNotFound
  | periodMissing _ => .periodNotFound
  | goalMissing _ | notCarried .. | commentedGoalMissing _ => .goalNotFound
  | keyResultMissing _ | commentedKeyResultMissing _ => .keyResultNotFound
  | stageMissing _ => .stageNotFound
  | periodClosed .. => .periodClosed
  | shareTargetLocked .. => .shareTargetLocked
  | progressMismatch .. | checkpointMismatch .. => .kindMismatch
  | parentCycle _ => .hierarchyCycle
  | storage .. | unreadableColumn .. | unreadablePayload .. | badAddress _ => .databaseError
  | vanished _ => .internalError

/-- The sentence for a cause. -/
def message : Failure → String
  | invalid cause => cause.message
  | teamMissing team | rootMissing team => s!"Team {team} not found"
  | periodMissing period => s!"Period {period} not found"
  | goalMissing goal | notCarried goal _ => s!"Goal {goal} not found"
  | keyResultMissing keyResult => s!"Key result {keyResult} not found"
  | stageMissing stage => s!"Stage {stage} not found"
  | commentedGoalMissing target | commentedKeyResultMissing target =>
    s!"Comment target {target} not found"
  | periodClosed period team _ => s!"Period {period} is closed for team {team}"
  | shareTargetLocked team status => s!"Team {team} is {status.label} for this period"
  | progressMismatch update stored =>
    s!"Cannot record {update.name} progress on a {stored.name} key result"
  | checkpointMismatch keyResult stored =>
    s!"Checkpoints need a PERCENT key result, {keyResult} is {stored.name}"
  | parentCycle team => s!"Team {team} is part of a parent cycle"
  | storage context fault => s!"{context}: error returned from database: {fault.message}"
  | unreadableColumn column cause => s!"Invalid value in column {column}: {cause.message}"
  | unreadablePayload keyResult fault =>
    s!"Invalid payload for key result {keyResult}: {fault.message}"
  | badAddress fault =>
    s!"Failed to connect to database: error with configuration: {fault.message}"
  | vanished keyResult => s!"Key result {keyResult} vanished inside its own transaction"

/-- The details for a cause. -/
def details : Failure → List (String × String)
  | invalid cause => [("field", cause.field)]
  | rootMissing team | notCarried _ team | shareTargetLocked team _ | parentCycle team =>
    [("team_id", toString team)]
  | periodClosed _ _ action => [("action", action.name)]
  | _ => []

/-- What a caller is told about a cause. -/
def report (f : Failure) : Report where
  code := f.code
  message := f.message
  details := f.details

/-- A violation is reported by its field and its sentence. -/
theorem report_invalid (cause : Violation) : (invalid cause).report = Report.ofViolation cause :=
  rfl

end Failure

/-- A check on a value as a check on a request. -/
def Violation.lift {α : Type} : Except Violation α → Except Failure α
  | .ok a => .ok a
  | .error v => .error (.invalid v)

end Objectives
