/- # Rows of the database

What each relation holds.  Words, weights and percentages are plain texts and integers here, since a
row may hold what no record can; the database itself only knows its checks.

Main definitions:

* `TeamRow`, `GoalRow`, `KeyResultRow`, … — the rows;
* `Rows` — all relations;
* `Rows.deleteTeams`, `Rows.deletePeriods`, `Rows.deleteGoals`, `Rows.deleteKeyResults` — deletion
  with all that hangs on the deleted rows.
-/

import Objectives.Calendar.Date
import Objectives.Collection.Table
import Objectives.Goal.Share
import Objectives.KeyResult.Basic

set_option relaxedAutoImplicit false
set_option autoImplicit false

namespace Objectives

/-! ### Rows -/

/-- A row of `teams`. -/
structure TeamRow where
  name : String
  type : String
  parent : Option TeamId
  deriving DecidableEq, Repr

/-- A row of `periods`. -/
structure PeriodRow where
  name : String
  startDate : Date
  endDate : Date
  sortOrder : Int
  deriving DecidableEq, Repr

/-- A row of `goals`. -/
structure GoalRow where
  team : TeamId
  period : PeriodId
  title : String
  description : String
  priority : String
  weight : Int
  workType : String
  focusType : String
  ownerText : String
  sortOrder : Int
  deriving DecidableEq, Repr

/-- A row of `goal_shares`. -/
structure ShareRow where
  weight : Int
  sortOrder : Int
  deriving DecidableEq, Repr

/-- A row of `key_results`. -/
structure KeyResultRow where
  goal : GoalId
  title : String
  description : String
  weight : Int
  kind : String
  sortOrder : Int
  deriving DecidableEq, Repr

/-- A row of `kr_project_stages`. -/
structure StageRow where
  keyResult : KeyResultId
  title : String
  weight : Int
  done : Bool
  sortOrder : Int
  deriving DecidableEq, Repr

/-- A row of `kr_percent_checkpoints`. -/
structure CheckpointRow where
  keyResult : KeyResultId
  value : Double
  percent : Int
  deriving DecidableEq, Repr

/-- A row of `goal_comments` or of `key_result_comments`. -/
structure CommentRow where
  /-- The goal or the key result that is commented. -/
  owner : Int
  text : String
  deriving DecidableEq, Repr

/-! ### Relations -/

/-- The rows of all relations by their primary keys. -/
structure Rows where
  teams : Table TeamId TeamRow
  periods : Table PeriodId PeriodRow
  goals : Table GoalId GoalRow
  shares : Table (GoalId × TeamId) ShareRow
  statuses : Table (TeamId × PeriodId) String
  keyResults : Table KeyResultId KeyResultRow
  stages : Table StageId StageRow
  percentRanges : Table KeyResultId (MetricRange Double)
  checkpoints : Table CheckpointId CheckpointRow
  linearRanges : Table KeyResultId (MetricRange Double)
  flags : Table KeyResultId Bool
  goalComments : Table CommentId CommentRow
  keyResultComments : Table CommentId CommentRow
  deriving DecidableEq

namespace Rows

/-- No rows. -/
def empty : Rows :=
  ⟨.empty, .empty, .empty, .empty, .empty, .empty, .empty, .empty, .empty, .empty, .empty, .empty,
    .empty⟩

/-! ### Deletion -/

/-- The goal of a key result is among some. -/
def isUnder (rows : Rows) (goals : GoalId → Bool) (id : KeyResultId) : Bool :=
  match rows.keyResults.get? id with
  | some row => goals row.goal
  | none => false

/-- Deletes key results with their measurements and their comments. -/
def deleteKeyResults (rows : Rows) (gone : KeyResultId → Bool) : Rows :=
  { rows with
    keyResults := rows.keyResults.filter fun id _ => !gone id
    stages := rows.stages.filter fun _ row => !gone row.keyResult
    percentRanges := rows.percentRanges.filter fun id _ => !gone id
    checkpoints := rows.checkpoints.filter fun _ row => !gone row.keyResult
    linearRanges := rows.linearRanges.filter fun id _ => !gone id
    flags := rows.flags.filter fun id _ => !gone id
    keyResultComments := rows.keyResultComments.filter fun _ row => !gone row.owner }

/-- Deletes goals with their shares, key results and comments. -/
def deleteGoals (rows : Rows) (gone : GoalId → Bool) : Rows :=
  { rows.deleteKeyResults (rows.isUnder gone) with
    goals := rows.goals.filter fun id _ => !gone id
    shares := rows.shares.filter fun key _ => !gone key.1
    goalComments := rows.goalComments.filter fun _ row => !gone row.owner }

/-- A goal is there and has a property. -/
def goalHas (rows : Rows) (p : GoalRow → Bool) (id : GoalId) : Bool :=
  match rows.goals.get? id with
  | some row => p row
  | none => false

/-- Deletes periods with their statuses and goals. -/
def deletePeriods (rows : Rows) (gone : PeriodId → Bool) : Rows :=
  { rows.deleteGoals (rows.goalHas fun row => gone row.period) with
    periods := rows.periods.filter fun id _ => !gone id
    statuses := rows.statuses.filter fun key _ => !gone key.2 }

/-- Deletes teams with their statuses, shares and goals.  The teams below them become roots. -/
def deleteTeams (rows : Rows) (gone : TeamId → Bool) : Rows :=
  let rest := rows.deleteGoals (rows.goalHas fun row => gone row.team)
  -- Shares in goals of other teams are left over by the deletion of goals.
  { rest with
    teams := (rows.teams.filter fun id _ => !gone id).mapValues fun _ row =>
      { row with parent := row.parent.filter fun parent => !gone parent }
    shares := rest.shares.filter fun key _ => !gone key.2
    statuses := rows.statuses.filter fun key _ => !gone key.1 }

end Rows

end Objectives
