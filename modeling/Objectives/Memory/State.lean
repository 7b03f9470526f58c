/- # A store in memory

The records in tables, with one counter for the identifiers of all kinds.

Main definitions:

* `Memory` — the records;
* `Memory.takeId` — a new identifier;
* `Memory.orderAfter` — the key of a new last sibling;
* `Memory.addTeam`, `Memory.setTeamParent` — teams, which no call adds or changes.

Main results:

* `Memory.lt_orderAfter` — a new last sibling has a greater key than all others.
-/

import Objectives.Store.Call

set_option relaxedAutoImplicit false
set_option autoImplicit false

namespace Objectives

/-- The records of a store in memory. -/
structure Memory where
  /-- The last identifier that was given. -/
  lastId : Int
  teams : Table TeamId Team
  periods : Table PeriodId Period
  goals : Table GoalId Goal
  shares : Table (GoalId × TeamId) Share
  statuses : Table (TeamId × PeriodId) Status
  keyResults : Table KeyResultId KeyResult
  comments : Table CommentId Comment
  deriving DecidableEq

namespace Memory

/-- The store without records. -/
def empty : Memory :=
  ⟨0, .empty, .empty, .empty, .empty, .empty, .empty, .empty⟩

/-- The store after the next identifier has been given. -/
def takeId (m : Memory) : Memory := { m with lastId := m.lastId + 1 }

/-- The key of a new last sibling: one more than the greatest, and 1 for the first. -/
def orderAfter (orders : List Int) : Int := orders.max?.getD 0 + 1

/-- A new last sibling has a greater key than all others. -/
theorem lt_orderAfter {orders : List Int} {order : Int} (h : order ∈ orders) :
    order < orderAfter orders := by
  unfold orderAfter
  cases hmax : orders.max? with
  | none => rw [List.max?_eq_none_iff.1 hmax] at h; cases h
  | some greatest =>
    have := (List.max?_eq_some_iff.1 hmax).2 order h
    simp only [Option.getD_some]
    omega

/-- Adds a team. -/
def addTeam (m : Memory) (name : String) (type : TeamType) (parent : Option TeamId) :
    Team × Memory :=
  let m := m.takeId
  let team : Team := ⟨m.lastId, name, type, parent⟩
  (team, { m with teams := m.teams.insert team.id team })

/-- Sets the parent of a team, if there is such a team; nothing is asked of the parent. -/
def setTeamParent (m : Memory) (team : TeamId) (parent : Option TeamId) : Memory :=
  { m with teams := m.teams.modify team fun t => { t with parent } }

end Memory

end Objectives
