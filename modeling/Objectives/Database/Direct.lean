/- # Direct access to the database

What is done to the database without going through the calls of a store: its schema can be changed, and
rows can be changed or deleted by hand, so that they hold what no record can.  The program does none of
this.

Main definitions:

* `Database` — what is in a database, and its schema;
* `Database.carry` — the database as a store, under whatever schema it has;
* `Database.setCells`, `Database.deleteWhere` — changing and deleting rows by hand;
* `Database.hide`, `Database.restore`, `Database.vanish` — getting in the way of later statements.
-/

import Objectives.Database.Calls
import Objectives.Database.Teams
import Objectives.Text.Integer
import Objectives.Vocabulary

set_option relaxedAutoImplicit false
set_option autoImplicit false

namespace Objectives

/-! ### Values of columns -/

/-- A value that is put into a column. -/
inductive Cell
  | null
  | bool (b : Bool)
  | int (n : Int)
  | real (x : Double)
  | text (s : String)
  deriving DecidableEq, Repr

namespace Cell

/-- The value for a column of texts. -/
def asText : Cell → Option String
  | text s => if s.toList.any fun c => c.toNat == 0 then none else some s
  | int n => some (toString n)
  | bool b => some (if b then "true" else "false")
  | _ => none

/-- An integer between two bounds. -/
def within (low high n : Int) : Option Int := if low ≤ n ∧ n ≤ high then some n else none

/-- The value for a column of integers with these bounds.  A fraction is rounded, a half away from
zero. -/
def asInteger (low high : Int) : Cell → Option Int
  | int n => within low high n
  | real x =>
    if x.isFinite then
      let size : Int := (Double.mk (x.bits &&& 0x7fffffffffffffff)).nearest
      within low high (if x.isNegative then -size else size)
    else none
  | text s =>
    match Text.readIdentifier s with
    | .ok n => within low high n
    | .error _ => none
  | _ => none

/-- The value for a column of integers of 32 bits. -/
def asSmall : Cell → Option Int := asInteger (-2147483648) 2147483647

/-- The value for a column of identifiers. -/
def asId : Cell → Option Int := asInteger Text.minInt64 Text.maxInt64

/-- The value for a column of doubles. -/
def asDouble : Cell → Option Double
  | int n => some (Double.ofDecimal (n < 0) n.natAbs 0)
  | real x => some x
  | text "NaN" => some .nan
  | text "Infinity" => some .posInfinity
  | text "-Infinity" => some .negInfinity
  | _ => none

/-- The value for a column of truth values. -/
def asBool : Cell → Option Bool
  | bool b => some b
  | text "true" => some true
  | text "false" => some false
  | _ => none

/-- The value for a column of dates. -/
def asDate : Cell → Option Date
  | text s => Date.ofText? s
  | _ => none

end Cell

/-! ### Columns -/

/-- What is known of the columns of a relation: the integers that rows can be picked by, and how a
value is put into a row. -/
structure Columns (κ ν : Type) where
  integers : List (String × (κ × ν → Option Int))
  settable : List (String × (Rows → Cell → Option (ν → ν)))

namespace Columns

variable {κ ν : Type}

/-- The test that an integer column has a value. -/
def picks? (columns : Columns κ ν) (key : String) (id : Int) : Option (κ → ν → Bool) :=
  (columns.integers.find? fun c => c.1 == key).map fun c k v => c.2 (k, v) == some id

/-- A column without references. -/
def plain {β : Type} (name : String) (read : Cell → Option β) (set : β → ν → ν) :
    String × (Rows → Cell → Option (ν → ν)) :=
  (name, fun _ cell => (read cell).map set)

/-- A column that refers to rows. -/
def referring (name : String) (isThere : Rows → Int → Bool) (set : Int → ν → ν) :
    String × (Rows → Cell → Option (ν → ν)) :=
  (name, fun rows cell => (cell.asId.filter (isThere rows)).map set)

/-- The columns of `teams`. -/
def teams : Columns TeamId TeamRow where
  integers := [("id", fun e => some e.1), ("parent_id", fun e => e.2.parent)]
  settable :=
    [plain "name" Cell.asText fun name row => { row with name },
      plain "type" Cell.asText fun type row => { row with type },
      ("parent_id", fun rows cell =>
        match cell with
        | .null => some fun row => { row with parent := none }
        | cell => (cell.asId.filter rows.teams.contains).map fun parent row =>
          { row with parent := some parent })]

/-- The columns of `periods`. -/
def periods : Columns PeriodId PeriodRow where
  integers := [("id", fun e => some e.1), ("sort_order", fun e => some e.2.sortOrder)]
  settable :=
    [plain "name" Cell.asText fun name row => { row with name },
      plain "start_date" Cell.asDate fun startDate row => { row with startDate },
      plain "end_date" Cell.asDate fun endDate row => { row with endDate },
      plain "sort_order" Cell.asSmall fun sortOrder row => { row with sortOrder }]

/-- The columns of `goals`. -/
def goals : Columns GoalId GoalRow where
  integers :=
    [("id", fun e => some e.1), ("team_id", fun e => some e.2.team),
      ("period_id", fun e => some e.2.period), ("weight", fun e => some e.2.weight),
      ("sort_order", fun e => some e.2.sortOrder)]
  settable :=
    [referring "team_id" (fun rows => rows.teams.contains) fun team row => { row with team },
      referring "period_id" (fun rows => rows.periods.contains) fun period row =>
        { row with period },
      plain "title" Cell.asText fun title row => { row with title },
      plain "description" Cell.asText fun description row => { row with description },
      plain "priority" Cell.asText fun priority row => { row with priority },
      plain "weight" Cell.asSmall fun weight row => { row with weight },
      plain "work_type" Cell.asText fun workType row => { row with workType },
      plain "focus_type" Cell.asText fun focusType row => { row with focusType },
      plain "owner_text" Cell.asText fun ownerText row => { row with ownerText },
      plain "sort_order" Cell.asSmall fun sortOrder row => { row with sortOrder }]

/-- The columns of `goal_shares`. -/
def shares : Columns (GoalId × TeamId) ShareRow where
  integers :=
    [("goal_id", fun e => some e.1.1), ("team_id", fun e => some e.1.2),
      ("weight", fun e => some e.2.weight), ("sort_order", fun e => some e.2.sortOrder)]
  settable :=
    [plain "weight" Cell.asSmall fun weight row => { row with weight },
      plain "sort_order" Cell.asSmall fun sortOrder row => { row with sortOrder }]

/-- The columns of `team_period_statuses`. -/
def statuses : Columns (TeamId × PeriodId) String where
  integers := [("team_id", fun e => some e.1.1), ("period_id", fun e => some e.1.2)]
  settable := [plain "status" Cell.asText fun status _ => status]

/-- The columns of `key_results`. -/
def keyResults : Columns KeyResultId KeyResultRow where
  integers :=
    [("id", fun e => some e.1), ("goal_id", fun e => some e.2.goal),
      ("weight", fun e => some e.2.weight), ("sort_order", fun e => some e.2.sortOrder)]
  settable :=
    [referring "goal_id" (fun rows => rows.goals.contains) fun goal row => { row with goal },
      plain "title" Cell.asText fun title row => { row with title },
      plain "description" Cell.asText fun description row => { row with description },
      plain "weight" Cell.asSmall fun weight row => { row with weight },
      plain "kind" Cell.asText fun kind row => { row with kind },
      plain "sort_order" Cell.asSmall fun sortOrder row => { row with sortOrder }]

/-- The columns of `kr_project_stages`. -/
def stages : Columns StageId StageRow where
  integers :=
    [("id", fun e => some e.1), ("key_result_id", fun e => some e.2.keyResult),
      ("weight", fun e => some e.2.weight), ("sort_order", fun e => some e.2.sortOrder)]
  settable :=
    [referring "key_result_id" (fun rows => rows.keyResults.contains) fun keyResult row =>
        { row with keyResult },
      plain "title" Cell.asText fun title row => { row with title },
      plain "weight" Cell.asSmall fun weight row => { row with weight },
      plain "is_done" Cell.asBool fun done row => { row with done },
      plain "sort_order" Cell.asSmall fun sortOrder row => { row with sortOrder }]

/-- The columns of a relation that holds ranges. -/
def ranges : Columns KeyResultId (MetricRange Double) where
  integers := [("key_result_id", fun e => some e.1)]
  settable :=
    [plain "start_value" Cell.asDouble fun start row => { row with start },
      plain "target_value" Cell.asDouble fun target row => { row with target },
      plain "current_value" Cell.asDouble fun current row => { row with current }]

/-- The columns of `kr_percent_checkpoints`. -/
def checkpoints : Columns CheckpointId CheckpointRow where
  integers :=
    [("id", fun e => some e.1), ("key_result_id", fun e => some e.2.keyResult),
      ("kr_percent", fun e => some e.2.percent)]
  settable :=
    [referring "key_result_id" (fun rows => rows.keyResults.contains) fun keyResult row =>
        { row with keyResult },
      plain "metric_value" Cell.asDouble fun value row => { row with value },
      plain "kr_percent" Cell.asSmall fun percent row => { row with percent }]

/-- The columns of `kr_boolean_meta`. -/
def flags : Columns KeyResultId Bool where
  integers := [("key_result_id", fun e => some e.1)]
  settable := [plain "is_done" Cell.asBool fun done _ => done]

/-- The columns of a relation of comments, with the name of the commented. -/
def comments (owner : String) (isThere : Rows → Int → Bool) : Columns CommentId CommentRow where
  integers := [("id", fun e => some e.1), (owner, fun e => some e.2.owner)]
  settable :=
    [referring owner isThere fun owner row => { row with owner },
      plain "text" Cell.asText fun text row => { row with text }]

end Columns

/-! ### Rows by hand -/

/-- Which rows to pick by the value of an integer column, and the value for a column of theirs. -/
structure Alteration where
  key : String
  id : Int
  column : String
  value : Cell
  deriving DecidableEq, Repr

namespace Alteration

variable {κ ν : Type} [Key κ]

/-- A relation after an alteration. -/
def alter? (a : Alteration) (columns : Columns κ ν) (rows : Rows) (table : Table κ ν) :
    Option (Table κ ν) := do
  let picks ← columns.picks? a.key a.id
  let setter ← (columns.settable.find? fun c => c.1 == a.column).map Prod.snd
  let set ← setter rows a.value
  return table.mapValues fun k v => if picks k v then set v else v

end Alteration

namespace Rows

/-- The rows after an alteration in one relation. -/
def alter? (rows : Rows) (relation : Relation) (a : Alteration) : Option Rows :=
  match relation with
  | .teams => (a.alter? .teams rows rows.teams).map fun teams => { rows with teams }
  | .periods => (a.alter? .periods rows rows.periods).map fun periods => { rows with periods }
  | .goals => (a.alter? .goals rows rows.goals).map fun goals => { rows with goals }
  | .goalShares => (a.alter? .shares rows rows.shares).map fun shares => { rows with shares }
  | .teamPeriodStatuses =>
    (a.alter? .statuses rows rows.statuses).map fun statuses => { rows with statuses }
  | .keyResults =>
    (a.alter? .keyResults rows rows.keyResults).map fun keyResults => { rows with keyResults }
  | .projectStages => (a.alter? .stages rows rows.stages).map fun stages => { rows with stages }
  | .percentRanges =>
    (a.alter? .ranges rows rows.percentRanges).map fun percentRanges =>
      { rows with percentRanges }
  | .percentCheckpoints =>
    (a.alter? .checkpoints rows rows.checkpoints).map fun checkpoints =>
      { rows with checkpoints }
  | .linearRanges =>
    (a.alter? .ranges rows rows.linearRanges).map fun linearRanges => { rows with linearRanges }
  | .booleanFlags => (a.alter? .flags rows rows.flags).map fun flags => { rows with flags }
  | .goalComments =>
    (a.alter? (.comments "goal_id" fun rows => rows.goals.contains) rows rows.goalComments).map
      fun goalComments => { rows with goalComments }
  | .keyResultComments =>
    (a.alter? (.comments "key_result_id" fun rows => rows.keyResults.contains) rows
      rows.keyResultComments).map fun keyResultComments => { rows with keyResultComments }

/-- A relation without the rows whose integer column has a value. -/
def without? {κ ν : Type} [Key κ] (columns : Columns κ ν) (key : String) (id : Int)
    (table : Table κ ν) : Option (Table κ ν) :=
  (columns.picks? key id).map fun picks => table.filter fun k v => !picks k v

/-- Whether a table has an entry under an identifier that is picked. -/
def picked {ν : Type} (table : Table Int ν) (picks : Int → ν → Bool) (id : Int) : Bool :=
  (table.get? id).any (picks id)

/-- The rows without those of one relation whose integer column has a value, and without all that
hangs on them. -/
def deleteWhere? (rows : Rows) (relation : Relation) (key : String) (id : Int) : Option Rows :=
  match relation with
  | .teams =>
    (Columns.teams.picks? key id).map fun picks => rows.deleteTeams (picked rows.teams picks)
  | .periods =>
    (Columns.periods.picks? key id).map fun picks => rows.deletePeriods (picked rows.periods picks)
  | .goals =>
    (Columns.goals.picks? key id).map fun picks => rows.deleteGoals (picked rows.goals picks)
  | .goalShares => (without? .shares key id rows.shares).map fun shares => { rows with shares }
  | .teamPeriodStatuses =>
    (without? .statuses key id rows.statuses).map fun statuses => { rows with statuses }
  | .keyResults =>
    (Columns.keyResults.picks? key id).map fun picks =>
      rows.deleteKeyResults (picked rows.keyResults picks)
  | .projectStages => (without? .stages key id rows.stages).map fun stages => { rows with stages }
  | .percentRanges =>
    (without? .ranges key id rows.percentRanges).map fun percentRanges =>
      { rows with percentRanges }
  | .percentCheckpoints =>
    (without? .checkpoints key id rows.checkpoints).map fun checkpoints =>
      { rows with checkpoints }
  | .linearRanges =>
    (without? .ranges key id rows.linearRanges).map fun linearRanges => { rows with linearRanges }
  | .booleanFlags => (without? .flags key id rows.flags).map fun flags => { rows with flags }
  | .goalComments =>
    (without? (.comments "goal_id" fun rows => rows.goals.contains) key id rows.goalComments).map
      fun goalComments => { rows with goalComments }
  | .keyResultComments =>
    (without? (.comments "key_result_id" fun rows => rows.keyResults.contains) key id
      rows.keyResultComments).map fun keyResultComments => { rows with keyResultComments }

end Rows

/-! ### Databases with a schema -/

/-- What is in a database, and its schema. -/
structure Database where
  contents : Contents
  schema : Schema

namespace Database

/-- A database without rows, under the schema of the program. -/
def empty : Database := ⟨.empty, .standard⟩

/-- Does something to what is in the database, under its schema. -/
def under {α : Type} (db : Database) (effect : Schema → Contents → α × Contents) : α × Database :=
  (effect db.schema db.contents).map id fun contents => { db with contents }

/-- The database as a store. -/
def carry : Carries Database := fun c db => db.under (Session.ofCall c)

/-- Adds a team. -/
def addTeam (name : String) (type : TeamType) (parent : Option TeamId) (db : Database) :
    Option Team × Database :=
  db.under (Statement.insertTeam name type parent).attempt

/-- Sets the parent of a team, if there is such a team. -/
def setTeamParent (team : TeamId) (parent : Option TeamId) (db : Database) :
    Option Unit × Database :=
  db.under (Statement.changeParent team parent).attempt

/-- The number of goals. -/
def goalCount (db : Database) : Option Nat × Database :=
  (db.under (Statement.select [.goals]).attempt).map
    (·.map fun rows => rows.goals.entries.length) id

/-- The database with other rows, or as it is if there are none. -/
def replaceRows (db : Database) : Option Rows → Option Unit × Database
  | some rows => (some (), { db with contents := { db.contents with rows } })
  | none => (none, db)

/-- Puts a value into a column of some rows.  The checks on the column, and the check on whole rows,
are not made any more from now on. -/
def setCells (relation : Relation) (a : Alteration) (db : Database) : Option Unit × Database :=
  let lifted := [s!"{relation.name}_{a.column}_check", s!"{relation.name}_check"]
  let schema : Schema := { db.schema with liftedChecks := lifted ++ db.schema.liftedChecks }
  let db := { db with schema }
  if schema.missing = some relation then (none, db)
  else db.replaceRows (db.contents.rows.alter? relation a)

/-- Deletes some rows and all that hangs on them. -/
def deleteWhere (relation : Relation) (key : String) (id : Int) (db : Database) :
    Option Unit × Database :=
  if db.schema.missing = some relation then (none, db)
  else db.replaceRows (db.contents.rows.deleteWhere? relation key id)

/-- Keeps statements from reaching a relation.  Its rows stay, and references to them count. -/
def hide (relation : Relation) (db : Database) : Database :=
  { db with schema := { db.schema with missing := some relation } }

/-- Lets statements reach a relation again. -/
def restore (relation : Relation) (db : Database) : Database :=
  { db with schema := { db.schema with missing := db.schema.missing.filter (· != relation) } }

/-- From now on a key result is deleted as soon as a linear range is added to it. -/
def vanish (db : Database) : Database :=
  { db with schema := { db.schema with vanishing := true } }

end Database

end Objectives
