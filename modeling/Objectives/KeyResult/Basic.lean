/- # Key results

A key result is a measurable outcome of a goal, with a weight inside it.

Main definitions:

* `KeyResult`, `KeyResultDraft` — a key result as stored and as submitted;
* `KeyResultDraft.normalized` — tidying a draft.
-/

import Objectives.KeyResult.Measurement

set_option relaxedAutoImplicit false
set_option autoImplicit false

namespace Objectives

/-- A key result. -/
structure KeyResult where
  id : KeyResultId
  goal : GoalId
  title : String
  description : String
  weight : Weight
  /-- The key that orders the key results of one goal. -/
  sortOrder : Int
  measurement : Measurement
  deriving DecidableEq, Repr

/-- The fields of a key result that can be edited. -/
structure KeyResultDraft where
  title : String
  description : String
  weight : Weight
  measurement : MeasurementDraft
  deriving DecidableEq, Repr

namespace KeyResultDraft

/-- The draft with its texts trimmed; a title has to remain, and the measurement to be complete. -/
def normalized (draft : KeyResultDraft) : Except Violation KeyResultDraft :=
  let title := Text.trim draft.title
  if title.isEmpty then .error (.empty "title")
  else draft.measurement.validate.map fun _ =>
    { draft with title, description := Text.trim draft.description }

end KeyResultDraft

end Objectives
