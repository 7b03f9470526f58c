/- # Relations of the database

The database spreads its records over thirteen relations.

Main definitions:

* `Relation` — the relations, with their names;
* `StorageFault` — why the database refuses a statement, with the sentence for it.
-/

import Objectives.Violation

set_option relaxedAutoImplicit false
set_option autoImplicit false

namespace Objectives

/-- A relation of the database. -/
inductive Relation
  | teams
  | periods
  | goals
  | goalShares
  | teamPeriodStatuses
  | keyResults
  | projectStages
  | percentRanges
  | percentCheckpoints
  | linearRanges
  | booleanFlags
  | goalComments
  | keyResultComments
  deriving DecidableEq, Repr

namespace Relation

/-- Every relation. -/
def all : List Relation :=
  [teams, periods, goals, goalShares, teamPeriodStatuses, keyResults, projectStages,
    percentRanges, percentCheckpoints, linearRanges, booleanFlags, goalComments,
    keyResultComments]

/-- The name in the schema. -/
def name : Relation → String
  | teams => "teams"
  | periods => "periods"
  | goals => "goals"
  | goalShares => "goal_shares"
  | teamPeriodStatuses => "team_period_statuses"
  | keyResults => "key_results"
  | projectStages => "kr_project_stages"
  | percentRanges => "kr_percent_meta"
  | percentCheckpoints => "kr_percent_checkpoints"
  | linearRanges => "kr_linear_meta"
  | booleanFlags => "kr_boolean_meta"
  | goalComments => "goal_comments"
  | keyResultComments => "key_result_comments"

/-- The relation of that name. -/
def ofName? (name : String) : Option Relation :=
  all.find? fun relation => relation.name == name

end Relation

/-- Why the database refuses a statement. -/
inductive StorageFault
  /-- The statement names a relation that is not there. -/
  | missingRelation (relation : Relation)
  /-- A column points to a record that is not there. -/
  | foreignKey (relation : Relation) (column : String)
  /-- A row breaks the named check. -/
  | check (relation : Relation) (constraint : String)
  /-- A text holds the character of code 0. -/
  | nulCharacter
  /-- A number does not fit its column. -/
  | integerOutOfRange
  deriving DecidableEq, Repr

namespace StorageFault

/-- The sentence of the database. -/
def message : StorageFault → String
  | missingRelation relation => s!"relation \"{relation.name}\" does not exist"
  | foreignKey relation column =>
    s!"insert or update on table \"{relation.name}\" violates foreign key constraint " ++
      s!"\"{relation.name}_{column}_fkey\""
  | check relation constraint =>
    s!"new row for relation \"{relation.name}\" violates check constraint \"{constraint}\""
  | nulCharacter => "invalid byte sequence for encoding \"UTF8\": 0x00"
  | integerOutOfRange => "integer out of range"

end StorageFault

end Objectives
