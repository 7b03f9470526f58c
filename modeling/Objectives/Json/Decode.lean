/- # Records from JSON

How each record is read, with its fields in the order that they have in a list.  Only types, ranges
of numbers and the rules of a metric's range are checked; texts are taken as they are.

Main definitions:

* `Stamped` — a record with the times that are exchanged with it;
* `Decode.team`, `Decode.goal`, `Decode.measurement`, … — the readers.
-/

import Objectives.Calendar.Instant
import Objectives.Database.Direct
import Objectives.Goal.Comment
import Objectives.Goal.Share
import Objectives.Json.Shape
import Objectives.KeyResult.Basic
import Objectives.Period.Basic
import Objectives.Sequence
import Objectives.Settings.Basic

set_option relaxedAutoImplicit false
set_option autoImplicit false

namespace Objectives

/-- A record with the time of its creation and, if it can be changed, that of its last change. -/
structure Stamped (α : Type) where
  record : α
  createdAt : Instant
  updatedAt : Option Instant
  deriving DecidableEq, Repr

namespace Decode

open Json (record object tagged field fieldOr optionalField metric integer integer32 natural string
  truth double array)

/-! ### Times -/

/-- A date. -/
def date : Json → Reading Date
  | .str s =>
    match Date.ofText? s with
    | some d => .ok d
    | none => .error .shape
  | _ => .error .shape

/-- A point in time. -/
def instant : Json → Reading Instant
  | .str s =>
    match Instant.ofText? s with
    | some t => .ok t
    | none => .error .shape
  | _ => .error .shape

/-- A record and its times. -/
def stamped {α : Type} (fields : Fields α) : Fields (Stamped α) :=
  (fun record created updated => ⟨record, created, some updated⟩)
    <$> fields
    <*> field "created_at" instant
    <*> field "updated_at" instant

/-! ### Teams and periods -/

/-- The fields of a team. -/
def teamFields : Fields Team :=
  Team.mk
    <$> field "id" integer
    <*> field "name" string
    <*> field "team_type" (Json.word TeamType)
    <*> optionalField "parent_id" integer

/-- A team without times, which is given by an object only. -/
def team : Json → Reading Team := object teamFields

/-- A team with its times. -/
def stampedTeam : Json → Reading (Stamped Team) := record (stamped teamFields)

/-- A period; its dates may be in any order. -/
def period : Json → Reading Period :=
  record (Period.mk
    <$> field "id" integer
    <*> field "name" string
    <*> field "start_date" date
    <*> field "end_date" date
    <*> field "sort_order" integer32)

/-! ### Goals -/

/-- The fields of a goal that can be edited. -/
def goalDraft : Json → Reading GoalDraft :=
  record (GoalDraft.mk
    <$> field "title" string
    <*> field "description" string
    <*> field "priority" (Json.word Priority)
    <*> field "weight" Json.weight
    <*> field "work_type" (Json.word WorkType)
    <*> field "focus_type" (Json.word FocusType)
    <*> field "owner_text" string)

/-- A goal with its times. -/
def stampedGoal : Json → Reading (Stamped Goal) :=
  record (stamped (Goal.mk
    <$> field "id" integer
    <*> field "team_id" integer
    <*> field "period_id" integer
    <*> field "title" string
    <*> field "description" string
    <*> field "priority" (Json.word Priority)
    <*> field "weight" Json.weight
    <*> field "work_type" (Json.word WorkType)
    <*> field "focus_type" (Json.word FocusType)
    <*> field "owner_text" string
    <*> field "sort_order" integer32))

/-- A share. -/
def share : Json → Reading Share :=
  record (Share.mk
    <$> field "goal_id" integer
    <*> field "team_id" integer
    <*> field "weight" Json.weight
    <*> field "sort_order" integer32)

/-- A team that should carry a goal. -/
def shareTarget : Json → Reading ShareTarget :=
  record (ShareTarget.mk <$> field "team_id" integer <*> field "weight" Json.weight)

/-- A goal in the list of a team; the goal comes with its times. -/
def stampedTeamGoal : Json → Reading (Stamped TeamGoal) :=
  record ((fun team goal weight order =>
      { goal with record := ⟨team, goal.record, weight, order⟩ })
    <$> field "team_id" integer
    <*> field "goal" stampedGoal
    <*> field "weight" Json.weight
    <*> field "sort_order" integer32)

/-- What a comment is on. -/
def commentTarget : Json → Reading CommentTarget :=
  tagged "kind" fun
    | "goal" => some (CommentTarget.goal <$> field "id" integer)
    | "key_result" => some (CommentTarget.keyResult <$> field "id" integer)
    | _ => none

/-- A comment with its time. -/
def stampedComment : Json → Reading (Stamped Comment) :=
  record ((fun id target text created => ⟨⟨id, target, text⟩, created, none⟩)
    <$> field "id" integer
    <*> field "target" commentTarget
    <*> field "text" string
    <*> field "created_at" instant)

/-! ### Measurements -/

/-- Three values that make a range. -/
def range (j : Json) : Reading (MetricRange Double) :=
  (record ((fun start target current => (start, target, current))
    <$> metric "start" double
    <*> metric "target" double
    <*> metric "current" double) j).bind fun (start, target, current) =>
      Json.checked (MetricRange.make start target current)

/-- A stage. -/
def stage : Json → Reading Stage :=
  record (Stage.mk
    <$> field "id" integer
    <*> field "title" string
    <*> field "weight" Json.weight
    <*> field "done" truth
    <*> field "sort_order" integer32)

/-- A stage as submitted. -/
def stageDraft : Json → Reading StageDraft :=
  record (StageDraft.mk
    <$> field "title" string
    <*> field "weight" Json.weight
    <*> field "done" truth)

/-- A checkpoint. -/
def checkpoint : Json → Reading Checkpoint :=
  record (Checkpoint.mk
    <$> field "id" integer
    <*> metric "metric_value" double
    <*> field "percent" Json.percentage)

/-- A checkpoint as submitted. -/
def checkpointDraft : Json → Reading CheckpointDraft :=
  record (CheckpointDraft.mk
    <$> metric "metric_value" double
    <*> field "percent" Json.percentage)

/-- A record whose kind decides which fields it has. -/
def byKind {α : Type} (fields : Kind → Fields α) : Json → Reading α :=
  tagged "kind" fun word => (Vocabulary.find? word).map fields

/-- A measurement. -/
def measurement : Json → Reading Measurement :=
  byKind fun
    | .project => Measurement.project <$> field "stages" (array stage)
    | .percent =>
      Measurement.percent <$> field "range" range <*> field "checkpoints" (array checkpoint)
    | .linear => Measurement.linear <$> field "range" range
    | .boolean => Measurement.boolean <$> field "done" truth

/-- A measurement as submitted. -/
def measurementDraft : Json → Reading MeasurementDraft :=
  byKind fun
    | .project => MeasurementDraft.project <$> field "stages" (array stageDraft)
    | .percent => MeasurementDraft.percent <$> field "range" range
    | .linear => MeasurementDraft.linear <$> field "range" range
    | .boolean => MeasurementDraft.boolean <$> field "done" truth

/-- The stage that a report is on, and whether it is done; given by an object only. -/
def stageReport : Json → Reading ProgressUpdate :=
  object (ProgressUpdate.stage <$> field "stage_id" integer <*> field "done" truth)

/-- A report of progress, its metric values read by `number`. -/
def progressUpdate (number : Json → Reading Double) : Json → Reading ProgressUpdate :=
  tagged "kind" fun
    | "stage" => some (field "value" stageReport)
    | "percent_current" => some (ProgressUpdate.percentCurrent <$> metric "value" number)
    | "linear_current" => some (ProgressUpdate.linearCurrent <$> metric "value" number)
    | "boolean" => some (ProgressUpdate.boolean <$> field "value" truth)
    | _ => none

/-! ### Key results -/

/-- A key result with its times. -/
def stampedKeyResult : Json → Reading (Stamped KeyResult) :=
  record (stamped (KeyResult.mk
    <$> field "id" integer
    <*> field "goal_id" integer
    <*> field "title" string
    <*> field "description" string
    <*> field "weight" Json.weight
    <*> field "sort_order" integer32
    <*> field "measurement" measurement))

/-- The fields of a key result that can be edited. -/
def keyResultDraft : Json → Reading KeyResultDraft :=
  record (KeyResultDraft.mk
    <$> field "title" string
    <*> field "description" string
    <*> field "weight" Json.weight
    <*> field "measurement" measurementDraft)

/-! ### Moves -/

/-- An item that can be moved. -/
def sequencedItem : Json → Reading SequencedItem :=
  tagged "type" fun
    | "goal" =>
      some (SequencedItem.goal <$> field "goal_id" integer <*> optionalField "as_team" integer)
    | "key_result" => some (SequencedItem.keyResult <$> field "key_result_id" integer)
    | "period" => some (SequencedItem.period <$> field "period_id" integer)
    | _ => none

/-- What a move did. -/
def moveOutcome : Json → Reading MoveOutcome :=
  tagged "outcome" fun
    | "swapped" => some (MoveOutcome.swapped <$> field "neighbor_id" integer)
    | "at_boundary" => some (pure .atBoundary)
    | "not_owner" => some (pure .notOwner)
    | _ => none

/-! ### Settings -/

/-- How to reach the database. -/
def databaseSettings : Json → Reading DatabaseSettings :=
  record (DatabaseSettings.mk
    <$> field "url" string
    <*> fieldOr "min_connections" (natural 32) 1
    <*> fieldOr "max_connections" (natural 32) 10
    <*> fieldOr "acquire_timeout_secs" (natural 64) 30
    <*> fieldOr "run_migrations" truth false)

/-- What to log. -/
def loggingSettings : Json → Reading LoggingSettings :=
  record (LoggingSettings.mk
    <$> fieldOr "level" string "info"
    <*> fieldOr "json" truth false)

/-- How to show a hierarchy. -/
def rollupSettings : Json → Reading RollupSettings :=
  record (RollupSettings.mk <$> fieldOr "indent_unit" (natural 32) 24)

/-- The settings. -/
def settings : Json → Reading Settings :=
  record (Settings.mk
    <$> field "database" databaseSettings
    <*> fieldOr "logging" loggingSettings {}
    <*> fieldOr "rollup" rollupSettings {})

/-! ### Rows by hand -/

/-- A value for a column. -/
def cell : Json → Reading Cell
  | .null => .ok .null
  | .bool b => .ok (.bool b)
  | .int n => .ok (.int n)
  | .real x => .ok (.real x)
  | .str "-0.0" => .ok (.real .negZero)
  | .str s => .ok (.text s)
  | _ => .error .shape

/-- A relation by its name. -/
def relation : Json → Reading Relation
  | .str s =>
    match Relation.ofName? s with
    | some relation => .ok relation
    | none => .error .shape
  | _ => .error .shape

/-- The name of a column: lower-case letters and underscores. -/
def column : Json → Reading String
  | .str s =>
    if s.toList.all fun c => ('a' ≤ c && c ≤ 'z') || c == '_' then .ok s else .error .shape
  | _ => .error .shape

end Decode

end Objectives
