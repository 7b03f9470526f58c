/- # Reports

What a caller is told when a request fails: a code, a sentence, and details by name.

Main definitions:

* `Code` — the twelve codes, in their five families;
* `Report` — a code with its sentence and details;
* `Report.text` — the report in one line.

Main results:

* `Report.detail?_withDetail` — a detail that is added takes the place of the one of that name.
-/

import Objectives.Violation

set_option relaxedAutoImplicit false
set_option autoImplicit false

namespace Objectives

/-- Why a request failed. -/
inductive Code
  | validationFailed
  | teamNotFound
  | periodNotFound
  | goalNotFound
  | keyResultNotFound
  | stageNotFound
  | periodClosed
  | shareTargetLocked
  | kindMismatch
  | hierarchyCycle
  | databaseError
  | internalError
  deriving DecidableEq, Repr

namespace Code

/-- Every code. -/
def all : List Code :=
  [validationFailed, teamNotFound, periodNotFound, goalNotFound, keyResultNotFound, stageNotFound,
    periodClosed, shareTargetLocked, kindMismatch, hierarchyCycle, databaseError, internalError]

/-- The code as callers see it. -/
def label : Code → String
  | validationFailed => "VALIDATION_FAILED"
  | teamNotFound => "TEAM_NOT_FOUND"
  | periodNotFound => "PERIOD_NOT_FOUND"
  | goalNotFound => "GOAL_NOT_FOUND"
  | keyResultNotFound => "KEY_RESULT_NOT_FOUND"
  | stageNotFound => "STAGE_NOT_FOUND"
  | periodClosed => "PERIOD_CLOSED"
  | shareTargetLocked => "SHARE_TARGET_LOCKED"
  | kindMismatch => "KIND_MISMATCH"
  | hierarchyCycle => "HIERARCHY_CYCLE"
  | databaseError => "DATABASE_ERROR"
  | internalError => "INTERNAL_ERROR"

/-- The code's own name. -/
def name : Code → String
  | validationFailed => "ValidationFailed"
  | teamNotFound => "TeamNotFound"
  | periodNotFound => "PeriodNotFound"
  | goalNotFound => "GoalNotFound"
  | keyResultNotFound => "KeyResultNotFound"
  | stageNotFound => "StageNotFound"
  | periodClosed => "PeriodClosed"
  | shareTargetLocked => "ShareTargetLocked"
  | kindMismatch => "KindMismatch"
  | hierarchyCycle => "HierarchyCycle"
  | databaseError => "DatabaseError"
  | internalError => "InternalError"

/-- The code of that name. -/
def ofName? (name : String) : Option Code :=
  all.find? fun code => code.name == name

/-- A status stands in the way of the request. -/
def isConflict : Code → Bool
  | periodClosed | shareTargetLocked => true
  | _ => false

/-- A record that the request names is missing. -/
def isNotFound : Code → Bool
  | teamNotFound | periodNotFound | goalNotFound | keyResultNotFound | stageNotFound => true
  | _ => false

end Code

/-- What a caller is told about a failed request. -/
structure Report where
  code : Code
  message : String
  /-- Details under distinct names, in the order in which the names were first added. -/
  details : List (String × String) := []
  deriving DecidableEq, Repr

namespace Report

/-- The detail of that name. -/
def detail? (r : Report) (name : String) : Option String :=
  (r.details.find? fun d => d.1 == name).map Prod.snd

/-- Sets the detail of a name in a list of details. -/
def setDetail (name value : String) : List (String × String) → List (String × String)
  | [] => [(name, value)]
  | d :: rest => if d.1 == name then (name, value) :: rest else d :: setDetail name value rest

/-- The report with a detail, in place of the one of that name. -/
def withDetail (r : Report) (name value : String) : Report :=
  { r with details := setDetail name value r.details }

/-- A detail that is added takes the place of the one of that name. -/
@[simp] theorem detail?_withDetail (r : Report) (name value : String) :
    (r.withDetail name value).detail? name = some value := by
  have h (list : List (String × String)) :
      ((setDetail name value list).find? fun d => d.1 == name) = some (name, value) := by
    induction list with
    | nil => simp [setDetail]
    | cons d rest ih =>
      unfold setDetail
      split
      · simp
      · rename_i hd
        simp [hd, ih]
  simp [detail?, withDetail, h]

/-- The report of a refused field. -/
def validation (field message : String) : Report :=
  (Report.mk .validationFailed message []).withDetail "field" field

/-- The report of a violation. -/
def ofViolation (v : Violation) : Report :=
  validation v.field v.message

/-- The report of a failure of the database, after what was being done. -/
def database (context cause : String) : Report :=
  ⟨.databaseError, s!"{context}: {cause}", []⟩

/-- The report in one line. -/
def text (r : Report) : String :=
  s!"[{r.code.label}] {r.message}"

end Report

end Objectives
