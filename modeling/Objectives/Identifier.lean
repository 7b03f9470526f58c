/- # Identifiers

Every record is known by an integer that is unique among the records of its kind.

Main definitions:

* `TeamId`, `PeriodId`, `GoalId`, `KeyResultId`, `StageId`, `CheckpointId`, `CommentId`.
-/

set_option relaxedAutoImplicit false
set_option autoImplicit false

namespace Objectives

/-- Names a team. -/
abbrev TeamId := Int

/-- Names a period. -/
abbrev PeriodId := Int

/-- Names a goal. -/
abbrev GoalId := Int

/-- Names a key result. -/
abbrev KeyResultId := Int

/-- Names a stage of a project. -/
abbrev StageId := Int

/-- Names a checkpoint of a percent key result. -/
abbrev CheckpointId := Int

/-- Names a comment. -/
abbrev CommentId := Int

end Objectives
