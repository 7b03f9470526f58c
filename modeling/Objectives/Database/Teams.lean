/- # Teams in the database

Teams are looked after outside of the program, by statements of their own.

Main definitions:

* `Statement.attempt` — a statement that is carried out by itself;
* `Contents.addTeam`, `Contents.setTeamParent` — looking after teams.
-/

import Objectives.Database.State

set_option relaxedAutoImplicit false
set_option autoImplicit false

namespace Objectives

namespace Statement

/-- The answer of a statement, without the cause of a refusal. -/
def attempt {α : Type} (statement : Statement α) (schema : Schema) (db : Contents) :
    Option α × Contents :=
  match statement schema db with
  | (.ok a, db) => (some a, db)
  | (.error _, db) => (none, db)

/-- Whether a parent can be referred to. -/
def isParent (rows : Rows) : Option TeamId → Bool
  | some parent => rows.teams.contains parent
  | none => true

/-- The insertion of a team.  A team may be its own parent. -/
def insertTeam (name : String) (type : TeamType) (parent : Option TeamId) : Statement Team := do
  reach [.teams]
  plainTexts [name]
  let id ← takeId .teams
  refer .teams "parent_id" (parent == some id || isParent (← Statement.rows) parent)
  change fun rows => { rows with teams := rows.teams.insert id ⟨name, type.name, parent⟩ }
  return ⟨id, name, type, parent⟩

/-- The change of the parent of a team, if there is such a team. -/
def changeParent (team : TeamId) (parent : Option TeamId) : Statement Unit := do
  reach [.teams]
  let rows ← Statement.rows
  if rows.teams.contains team then
    refer .teams "parent_id" (isParent rows parent)
    change fun rows => { rows with teams := rows.teams.modify team fun row => { row with parent } }

end Statement

namespace Contents

/-- Adds a team. -/
def addTeam (name : String) (type : TeamType) (parent : Option TeamId) (db : Contents) :
    Option Team × Contents :=
  (Statement.insertTeam name type parent).attempt .standard db

/-- Sets the parent of a team, if there is such a team. -/
def setTeamParent (team : TeamId) (parent : Option TeamId) (db : Contents) :
    Option Unit × Contents :=
  (Statement.changeParent team parent).attempt .standard db

end Contents

end Objectives
