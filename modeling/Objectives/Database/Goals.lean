/- # Goals in the database

The calls on goals, on shares and on statuses, as statements.

Main definitions:

* `Session.createGoal`, `Session.updateGoal`, `Session.goalsOf`, … — the calls on goals;
* `Session.setOwner`, `Session.replaceShares`, `Session.promote`, … — the calls on shares;
* `Session.setStatus`, `Session.listStatuses` — the calls on statuses.
-/

import Objectives.Database.Reading

set_option relaxedAutoImplicit false
set_option autoImplicit false

namespace Objectives.Session

open Statement (reach plainTexts takeId orderAfter refer change)

/-! ### Goals -/

/-- The goals that a team owns in a period. -/
def goalsOwned (rows : Rows) (team : TeamId) (period : PeriodId) : List (GoalId × GoalRow) :=
  rows.goals.entries.filter fun e => e.2.team == team && e.2.period == period

/-- The insertion of a goal after the others of its team and period. -/
def insertGoal (team : TeamId) (period : PeriodId) (draft : GoalDraft) : Statement Goal := do
  reach [.goals]
  plainTexts [draft.title, draft.description, draft.ownerText]
  -- The identifier is given before the row is checked, so a refused row uses one up.
  let id ← takeId .goals
  let rows ← Statement.rows
  let order ← orderAfter ((goalsOwned rows team period).map fun e => e.2.sortOrder)
  refer .goals "team_id" (rows.teams.contains team)
  refer .goals "period_id" (rows.periods.contains period)
  let goal := Goal.ofDraft id team period order draft
  change fun rows => { rows with goals := rows.goals.insert id (.ofGoal goal) }
  return goal

/-- Adds a goal after the others of its team and period. -/
def createGoal (team : TeamId) (period : PeriodId) (draft : GoalDraft) : Session Goal :=
  execute "Failed to insert goal" (insertGoal team period draft)

/-- The goal of an identifier. -/
def findGoal (id : GoalId) : Session (Option Goal) := do
  let rows ← query "Failed to fetch goal" [.goals]
  match rows.goals.get? id with
  | some row => return some (← lift (row.read id))
  | none => return none

/-- The row of a goal with its editable fields taken from a draft. -/
def editGoalRow (draft : GoalDraft) (row : GoalRow) : GoalRow :=
  { row with
    title := draft.title
    description := draft.description
    priority := draft.priority.name
    weight := draft.weight.value
    workType := draft.workType.name
    focusType := draft.focusType.name
    ownerText := draft.ownerText }

/-- The change of the editable fields of a goal; answers whether there is such a goal. -/
def editGoal (id : GoalId) (draft : GoalDraft) : Statement Bool := do
  reach [.goals]
  plainTexts [draft.title, draft.description, draft.ownerText]
  let found := (← Statement.rows).goals.contains id
  change fun rows => { rows with goals := rows.goals.modify id (editGoalRow draft) }
  return found

/-- Sets the editable fields of a goal. -/
def updateGoal (id : GoalId) (draft : GoalDraft) : Session Unit := do
  let found ← execute "Failed to update goal" (editGoal id draft)
  if found then pure () else throw (.goalMissing id)

/-- Removes a goal with everything on it. -/
def deleteGoal (id : GoalId) : Session Unit := do
  let found ← execute "Failed to delete goal" do
    reach [.goals]
    let found := (← Statement.rows).goals.contains id
    change fun rows => rows.deleteGoals (· == id)
    return found
  if found then pure () else throw (.goalMissing id)

/-- A goal in the list of a team, before it is read: its row, and the weight and the key that it has
there.  A share decides over both. -/
structure ListedRow where
  id : GoalId
  row : GoalRow
  weight : Int
  sortOrder : Int

/-- A goal as listed for a team, if the team carries it. -/
def listedRow (rows : Rows) (team : TeamId) (e : GoalId × GoalRow) : Option ListedRow :=
  match rows.shares.get? (e.1, team) with
  | some share => some ⟨e.1, e.2, share.weight, share.sortOrder⟩
  | none => if e.2.team == team then some ⟨e.1, e.2, e.2.weight, e.2.sortOrder⟩ else none

/-- The first goal is not after the second in a team's list: by key, then by identifier. -/
def listedBefore (a b : ListedRow) : Bool :=
  a.sortOrder < b.sortOrder || (a.sortOrder == b.sortOrder && a.id ≤ b.id)

/-- Reads a goal in the list of a team. -/
def readListed (team : TeamId) (listed : ListedRow) : Except Failure TeamGoal := do
  let goal ← listed.row.read listed.id
  let weight ← Column.weight "team_weight" listed.weight
  return ⟨team, goal, weight, listed.sortOrder⟩

/-- The goals that a team carries in a period. -/
def goalsOf (team : TeamId) (period : PeriodId) : Session (List TeamGoal) := do
  let rows ← query "Failed to fetch team goals" [.goals, .goalShares]
  let goals := rows.goals.entries.filter fun e => e.2.period == period
  collect (fun listed => lift (readListed team listed))
    (sortBy listedBefore (goals.filterMap (listedRow rows team)))

/-! ### Shares -/

/-- The shares in a goal, by team. -/
def listShares (goal : GoalId) : Session (List Share) := do
  let rows ← query "Failed to fetch goal shares" [.goalShares]
  collect (fun e => lift (e.2.read e.1)) (rows.shares.entries.filter fun e => e.1.1 == goal)

/-- The change of the owner of a goal and of the owner's weight; answers whether there is such a
goal.  A new owner gets the goal after its others in that period. -/
def changeOwner (id : GoalId) (owner : ShareTarget) : Statement Bool := do
  reach [.goals]
  let rows ← Statement.rows
  match rows.goals.get? id with
  | none => return false
  | some row =>
    let weight : Int := owner.weight.value
    if row.team == owner.team then
      change fun rows => { rows with goals := rows.goals.insert id { row with weight } }
    else
      let others := (goalsOwned rows owner.team row.period).filter fun e => e.1 != id
      let order ← orderAfter (others.map fun e => e.2.sortOrder)
      refer .goals "team_id" (rows.teams.contains owner.team)
      let row := { row with team := owner.team, weight, sortOrder := order }
      change fun rows => { rows with goals := rows.goals.insert id row }
    return true

/-- Sets the owner of a goal and the owner's weight. -/
def setOwner (id : GoalId) (owner : ShareTarget) : Session Unit := do
  let found ← execute "Failed to update goal owner" (changeOwner id owner)
  if found then pure () else throw (.goalMissing id)

/-- The removal of the shares of all but some teams. -/
def pruneShares (goal : GoalId) (kept : List TeamId) : Statement Unit := do
  reach [.goalShares]
  change fun rows =>
    { rows with shares := rows.shares.filter fun key _ => key.1 != goal || kept.contains key.2 }

/-- The insertion of a share, which takes over the key of its goal; if there is one already, its
weight is changed. -/
def upsertShare (goal : GoalId) (target : ShareTarget) : Statement Unit := do
  reach [.goalShares, .goals]
  let rows ← Statement.rows
  let key := (goal, target.team)
  let weight : Int := target.weight.value
  match rows.goals.get? goal, rows.shares.get? key with
  | none, _ => pure ()
  | some _, some share =>
    change fun rows => { rows with shares := rows.shares.insert key { share with weight } }
  | some row, none =>
    refer .goalShares "team_id" (rows.teams.contains target.team)
    change fun rows => { rows with shares := rows.shares.insert key ⟨weight, row.sortOrder⟩ }

/-- Sets the owner of a goal and the teams with a share. -/
def replaceShares (plan : SharePlan) : Session Unit :=
  transaction do
    setOwner plan.goal plan.owner
    execute "Failed to prune goal shares"
      (pruneShares plan.goal (plan.shares.map ShareTarget.team))
    forEach (fun target => execute "Failed to upsert goal share" (upsertShare plan.goal target))
      plan.shares

/-- The removal of the share of a team, if there is one. -/
def dropShare (goal : GoalId) (team : TeamId) : Statement Unit := do
  reach [.goalShares]
  change fun rows => { rows with shares := rows.shares.erase (goal, team) }

/-- Removes the share of a team, if there is one. -/
def removeShare (goal : GoalId) (team : TeamId) : Session Unit :=
  execute "Failed to remove goal share" (dropShare goal team)

/-- Makes the team of a share the owner, and removes the share. -/
def promote (share : Share) : Session Unit :=
  transaction do
    setOwner share.goal ⟨share.team, share.weight⟩
    execute "Failed to remove promoted share" (dropShare share.goal share.team)

/-- The change of the weight of a goal for its owner; answers whether the team is the owner. -/
def changeGoalWeight (id : GoalId) (team : TeamId) (weight : Weight) : Statement Bool := do
  reach [.goals]
  match (← Statement.rows).goals.get? id with
  | some row =>
    if row.team == team then
      change fun rows =>
        { rows with goals := rows.goals.insert id { row with weight := weight.value } }
      return true
    else return false
  | none => return false

/-- The change of the weight of a share; answers whether there is such a share. -/
def changeShareWeight (goal : GoalId) (team : TeamId) (weight : Weight) : Statement Bool := do
  reach [.goalShares]
  match (← Statement.rows).shares.get? (goal, team) with
  | some row =>
    change fun rows =>
      { rows with shares := rows.shares.insert (goal, team) { row with weight := weight.value } }
    return true
  | none => return false

/-- Sets the weight of a goal for a team. -/
def setTeamWeight (id : GoalId) (team : TeamId) (weight : Weight) : Session Unit := do
  let owned ← execute "Failed to update goal weight" (changeGoalWeight id team weight)
  if owned then pure ()
  else
    let shared ← execute "Failed to update share weight" (changeShareWeight id team weight)
    if shared then pure () else throw (.notCarried id team)

/-! ### Statuses -/

/-- The status of a team in a period. -/
def findStatus (team : TeamId) (period : PeriodId) : Session Status := do
  let rows ← query "Failed to fetch team period status" [.teamPeriodStatuses]
  match rows.statuses.get? (team, period) with
  | some text => lift (readStatus text)
  | none => return .noGoals

/-- The insertion of a status, or its change if there is one already. -/
def upsertStatus (team : TeamId) (period : PeriodId) (status : Status) : Statement Unit := do
  reach [.teamPeriodStatuses]
  let rows ← Statement.rows
  -- A change of a row leaves its references alone, so they are not looked at again.
  let known := rows.statuses.contains (team, period)
  refer .teamPeriodStatuses "team_id" (known || rows.teams.contains team)
  refer .teamPeriodStatuses "period_id" (known || rows.periods.contains period)
  change fun rows => { rows with statuses := rows.statuses.insert (team, period) status.name }

/-- Sets the status of a team in a period. -/
def setStatus (team : TeamId) (period : PeriodId) (status : Status) : Session Unit :=
  execute "Failed to save team period status" (upsertStatus team period status)

/-- The statuses of a period, by team. -/
def listStatuses (period : PeriodId) : Session (Table TeamId Status) := do
  let rows ← query "Failed to fetch team period statuses" [.teamPeriodStatuses]
  let own := rows.statuses.entries.filter fun e => e.1.2 == period
  return .ofList (← collect
    (fun e => do
      return (e.1.1, ← lift (readStatus e.2)))
    own)

end Objectives.Session
