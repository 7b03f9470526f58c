/- # Records as JSON

How each record is written.

Main definitions:

* `Encode.team`, `Encode.goal`, `Encode.measurement`, … — the writers;
* `Encode.stamped` — a record with its times.
-/

import Objectives.Command.Basic
import Objectives.Json.Decode
import Objectives.Rollup.Summary

set_option relaxedAutoImplicit false
set_option autoImplicit false

namespace Objectives.Encode

open Json (obj str int real bool)

/-- A text. -/
def text (s : String) : Json := str s

/-- A number. -/
def integer (n : Int) : Json := int n

/-- A word of a closed list. -/
def word {α : Type} [Vocabulary α] (a : α) : Json := str (Vocabulary.name a)

/-- A weight. -/
def weight (w : Weight) : Json := .nat w.value

/-- A percentage. -/
def percentage (p : Percentage) : Json := .nat p.value

/-- A date. -/
def date (d : Date) : Json := str d.text

/-- A record with its times behind its own fields. -/
def stamped {α : Type} (write : α → Json) (s : Stamped α) : Json :=
  (write s.record).extend
    (("created_at", str s.createdAt.text)
      :: (s.updatedAt.map fun t => ("updated_at", str t.text)).toList)

/-! ### Teams and periods -/

/-- A team. -/
def team (t : Team) : Json :=
  obj [("id", int t.id), ("name", str t.name), ("team_type", word t.type),
    ("parent_id", .option int t.parent)]

mutual

/-- A team with those below it. -/
def teamNode : TeamNode → Json
  | .node t children => obj [("team", team t), ("children", .arr (teamNodes children))]

/-- Teams with those below them. -/
def teamNodes : List TeamNode → List Json
  | [] => []
  | tree :: rest => teamNode tree :: teamNodes rest

end

/-- A period. -/
def period (p : Period) : Json :=
  obj [("id", int p.id), ("name", str p.name), ("start_date", date p.startDate),
    ("end_date", date p.endDate), ("sort_order", int p.sortOrder)]

/-! ### Goals -/

/-- The fields of a goal that can be edited. -/
def goalDraft (d : GoalDraft) : Json :=
  obj [("title", str d.title), ("description", str d.description), ("priority", word d.priority),
    ("weight", weight d.weight), ("work_type", word d.workType), ("focus_type", word d.focusType),
    ("owner_text", str d.ownerText)]

/-- A goal. -/
def goal (g : Goal) : Json :=
  obj [("id", int g.id), ("team_id", int g.team), ("period_id", int g.period),
    ("title", str g.title), ("description", str g.description), ("priority", word g.priority),
    ("weight", weight g.weight), ("work_type", word g.workType), ("focus_type", word g.focusType),
    ("owner_text", str g.ownerText), ("sort_order", int g.sortOrder)]

/-- A share. -/
def share (s : Share) : Json :=
  obj [("goal_id", int s.goal), ("team_id", int s.team), ("weight", weight s.weight),
    ("sort_order", int s.sortOrder)]

/-- A team that should carry a goal. -/
def shareTarget (t : ShareTarget) : Json :=
  obj [("team_id", int t.team), ("weight", weight t.weight)]

/-- Who should own a goal and who should share in it. -/
def sharePlan (p : SharePlan) : Json :=
  obj [("goal_id", int p.goal), ("owner", shareTarget p.owner),
    ("shares", .list shareTarget p.shares)]

/-- A goal in the list of a team, with the goal written as given. -/
def teamGoalWith (goal : Json) (t : TeamGoal) : Json :=
  obj [("team_id", int t.team), ("goal", goal), ("weight", weight t.weight),
    ("sort_order", int t.sortOrder)]

/-- A goal in the list of a team. -/
def teamGoal (t : TeamGoal) : Json := teamGoalWith (goal t.goal) t

/-- A goal in the list of a team, the goal with its times. -/
def stampedTeamGoal (s : Stamped TeamGoal) : Json :=
  teamGoalWith (stamped goal { s with record := s.record.goal }) s.record

/-- A team that carries a goal. -/
def contributingTeam (t : ContributingTeam) : Json :=
  obj [("team_id", int t.team), ("name", str t.name), ("team_type", word t.type),
    ("weight", weight t.weight), ("is_owner", bool t.isOwner)]

/-- What a comment is on. -/
def commentTarget : CommentTarget → Json
  | .goal id => obj [("kind", str "goal"), ("id", int id)]
  | .keyResult id => obj [("kind", str "key_result"), ("id", int id)]

/-- A comment. -/
def comment (c : Comment) : Json :=
  obj [("id", int c.id), ("target", commentTarget c.target), ("text", str c.text)]

/-! ### Measurements -/

/-- A range. -/
def range (r : MetricRange Double) : Json :=
  obj [("start", real r.start), ("target", real r.target), ("current", real r.current)]

/-- A stage. -/
def stage (s : Stage) : Json :=
  obj [("id", int s.id), ("title", str s.title), ("weight", weight s.weight), ("done", bool s.done),
    ("sort_order", int s.sortOrder)]

/-- A stage as submitted. -/
def stageDraft (s : StageDraft) : Json :=
  obj [("title", str s.title), ("weight", weight s.weight), ("done", bool s.done)]

/-- A checkpoint. -/
def checkpoint (c : Checkpoint) : Json :=
  obj [("id", int c.id), ("metric_value", real c.value), ("percent", percentage c.percent)]

/-- A checkpoint as submitted. -/
def checkpointDraft (c : CheckpointDraft) : Json :=
  obj [("metric_value", real c.value), ("percent", percentage c.percent)]

/-- A measurement. -/
def measurement (m : Measurement) : Json :=
  obj (("kind", word m.kind) ::
    match m with
    | .project stages => [("stages", .list stage stages)]
    | .percent r checkpoints => [("range", range r), ("checkpoints", .list checkpoint checkpoints)]
    | .linear r => [("range", range r)]
    | .boolean done => [("done", bool done)])

/-- A measurement as submitted. -/
def measurementDraft (m : MeasurementDraft) : Json :=
  obj (("kind", word m.kind) ::
    match m with
    | .project stages => [("stages", .list stageDraft stages)]
    | .percent r | .linear r => [("range", range r)]
    | .boolean done => [("done", bool done)])

/-- A report of progress. -/
def progressUpdate : ProgressUpdate → Json
  | .stage id done =>
    obj [("kind", str "stage"), ("value", obj [("stage_id", int id), ("done", bool done)])]
  | .percentCurrent x => obj [("kind", str "percent_current"), ("value", real x)]
  | .linearCurrent x => obj [("kind", str "linear_current"), ("value", real x)]
  | .boolean done => obj [("kind", str "boolean"), ("value", bool done)]

/-! ### Key results -/

/-- A key result. -/
def keyResult (k : KeyResult) : Json :=
  obj [("id", int k.id), ("goal_id", int k.goal), ("title", str k.title),
    ("description", str k.description), ("weight", weight k.weight),
    ("sort_order", int k.sortOrder), ("measurement", measurement k.measurement)]

/-- The fields of a key result that can be edited. -/
def keyResultDraft (d : KeyResultDraft) : Json :=
  obj [("title", str d.title), ("description", str d.description), ("weight", weight d.weight),
    ("measurement", measurementDraft d.measurement)]

/-- A key result as shown. -/
def keyResultView (v : KeyResultView) : Json :=
  (keyResult v.keyResult).extend
    [("progress", percentage v.progress), ("comments", .list comment v.comments)]

/-! ### Moves -/

/-- An item that can be moved. -/
def sequencedItem : SequencedItem → Json
  | .goal id asTeam =>
    obj [("type", str "goal"), ("goal_id", int id), ("as_team", .option int asTeam)]
  | .keyResult id => obj [("type", str "key_result"), ("key_result_id", int id)]
  | .period id => obj [("type", str "period"), ("period_id", int id)]

/-- What a move did. -/
def moveOutcome : MoveOutcome → Json
  | .swapped neighbor => obj [("outcome", str "swapped"), ("neighbor_id", int neighbor)]
  | .atBoundary => obj [("outcome", str "at_boundary")]
  | .notOwner => obj [("outcome", str "not_owner")]

/-! ### Summaries -/

/-- A goal in the list of a team's row. -/
def goalSummary (g : GoalSummary) : Json :=
  obj [("id", int g.id), ("title", str g.title), ("priority", word g.priority),
    ("weight", weight g.weight), ("progress", percentage g.progress), ("is_owned", bool g.isOwned),
    ("contributing_teams", .list contributingTeam g.contributingTeams)]

/-- The row of a team. -/
def teamSummary (t : TeamSummary) : Json :=
  obj [("team_id", int t.team), ("name", str t.name), ("team_type", word t.type),
    ("depth", .nat t.depth), ("indent", .nat t.indent), ("status", word t.status),
    ("progress", percentage t.progress), ("goal_count", .nat t.goalCount),
    ("total_weight", .nat t.totalWeight), ("goals", .list goalSummary t.goals)]

/-- The page of a goal. -/
def goalDetail (d : GoalDetail) : Json :=
  obj [("goal", goal d.goal), ("progress", percentage d.progress), ("status", word d.status),
    ("key_results", .list keyResultView d.keyResults), ("comments", .list comment d.comments),
    ("contributing_teams", .list contributingTeam d.contributingTeams)]

/-- A team that a goal could be shared with. -/
def shareCandidate (c : ShareCandidate) : Json :=
  obj [("team_id", int c.team), ("name", str c.name), ("team_type", word c.type),
    ("depth", .nat c.depth), ("indent", .nat c.indent), ("status", word c.status),
    ("eligible", bool c.eligible), ("selected", bool c.selected), ("weight", weight c.weight)]

/-! ### Replies to calls -/

/-- The statuses of teams, by team. -/
def statuses (table : Table TeamId Status) : Json :=
  .list (fun e : TeamId × Status => .arr [int e.1, word e.2]) table.entries

/-- What a call answers. -/
def reply : (c : Call) → c.Reply → Json
  | .teams, teams => .list team teams
  | .team _, found => .option team found
  | .createPeriod .., p => period p
  | .periods, periods => .list period periods
  | .period _, found => .option period found
  | .periodOn _, found => .option period found
  | .status .., status => word status
  | .setStatus .., () => .null
  | .statuses _, table => statuses table
  | .createGoal .., g => goal g
  | .goal _, found => .option goal found
  | .updateGoal .., () => .null
  | .deleteGoal _, () => .null
  | .goalsOf .., goals => .list teamGoal goals
  | .shares _, shares => .list share shares
  | .replaceShares _, () => .null
  | .removeShare .., () => .null
  | .promote _, () => .null
  | .setTeamWeight .., () => .null
  | .createKeyResult .., k => keyResult k
  | .keyResult _, found => .option keyResult found
  | .keyResultsOf _, keyResults => .list keyResult keyResults
  | .updateKeyResult .., k => keyResult k
  | .setWeights .., () => .null
  | .recordProgress .., () => .null
  | .addCheckpoint .., c => checkpoint c
  | .deleteKeyResult _, () => .null
  | .addComment .., c => comment c
  | .comments _, comments => .list comment comments
  | .move .., o => moveOutcome o

/-! ### Outcomes of commands -/

/-- What a command answers. -/
def outcome : (c : Command) → c.Outcome → Json
  | .createGoal .., o => obj [("goal", goal o.goal), ("status", word o.status)]
  | .updateGoal .., g => goal g
  | .deleteGoal .., .deleted => obj [("outcome", str "deleted")]
  | .deleteGoal .., .ownershipTransferred newOwner =>
    obj [("outcome", str "ownership_transferred"), ("new_owner", int newOwner)]
  | .deleteGoal .., .shareRemoved => obj [("outcome", str "share_removed")]
  | .shareGoal .., o => obj [("plan", sharePlan o.plan), ("owner_changed", bool o.ownerChanged)]
  | .createKeyResult .., k => keyResult k
  | .updateKeyResult .., k => keyResult k
  | .setWeights .., () => .null
  | .recordProgress .., o =>
    obj [("key_result", keyResult o.keyResult), ("progress", percentage o.progress)]
  | .addCheckpoint .., c => checkpoint c
  | .deleteKeyResult _, () => .null
  | .addComment .., c => comment c
  | .setStatus .., o => obj [("previous", word o.previous), ("status", word o.status)]
  | .move .., o => moveOutcome o

/-! ### Reports -/

/-- A violation. -/
def violation (v : Violation) : Json :=
  let kind := match v with
    | .empty _ => "EmptyField"
    | .outOfRange .. => "OutOfRange"
    | .malformed .. => "InvalidFormat"
  obj [("error", str kind), ("message", str v.message)]

/-- What a caller is told about a failed request. -/
def report (r : Report) : Json :=
  obj [("error", str r.code.label), ("message", str r.message),
    ("details", obj (r.details.map fun d => (d.1, str d.2)))]

/-- Why a request failed. -/
def failure (f : Failure) : Json := report f.report

/-! ### Settings -/

/-- The settings. -/
def settings (s : Settings) : Json :=
  obj [("url", str s.database.url), ("min_connections", .nat s.database.minConnections),
    ("max_connections", .nat s.database.maxConnections),
    ("acquire_timeout_secs", .nat s.database.acquireTimeout),
    ("run_migrations", bool s.database.runMigrations), ("level", str s.logging.level),
    ("json", bool s.logging.json), ("indent_unit", .nat s.rollup.indentUnit)]

/-- Why settings are refused. -/
def settingsFault (f : SettingsFault) : Json :=
  obj [("error", str f.name), ("message", str f.message)]

end Objectives.Encode
