/- # Commands on goals

What is done to create, change, share and delete goals.  A team whose period is closed can do none
of it; sharing asks for the status of the teams that are new to the goal instead.

Main definitions:

* `requireOpen` — the check that a team's period is not closed;
* `Goals.create`, `Goals.update`, `Goals.delete`, `Goals.share` — the commands.
-/

import Objectives.Store.Program

set_option relaxedAutoImplicit false
set_option autoImplicit false

namespace Objectives

/-- The status of a team in a period, which must not be closed. -/
def requireOpen (team : TeamId) (period : PeriodId) (action : Action) : Program Status := do
  let status ← Program.ask (.status team period)
  if status.isClosed then Program.fail (.periodClosed period team action)
  else pure status

/-- The team of an identifier. -/
def requireTeam (id : TeamId) : Program Team := do
  Program.expect (.teamMissing id) (← Program.ask (.team id))

/-- The period of an identifier. -/
def requirePeriod (id : PeriodId) : Program Period := do
  Program.expect (.periodMissing id) (← Program.ask (.period id))

/-- The goal of an identifier. -/
def requireGoal (id : GoalId) : Program Goal := do
  Program.expect (.goalMissing id) (← Program.ask (.goal id))

/-- A created goal, and the status of its team after that. -/
structure GoalCreated where
  goal : Goal
  status : Status
  deriving DecidableEq, Repr

/-- What became of a goal that a team deleted. -/
inductive GoalDeletion
  | deleted
  | ownershipTransferred (newOwner : TeamId)
  | shareRemoved
  deriving DecidableEq, Repr

/-- The plan that was carried out, and whether it has changed the owner. -/
structure GoalShared where
  plan : SharePlan
  ownerChanged : Bool
  deriving DecidableEq, Repr

namespace Goals

/-- Creates a goal of a team in a period.  The first goal moves the team on from having none. -/
def create (team : TeamId) (period : PeriodId) (draft : GoalDraft) : Program GoalCreated := do
  let draft ← Program.check draft.normalized
  let _ ← requireTeam team
  let _ ← requirePeriod period
  let status ← requireOpen team period .createGoal
  let goal ← Program.ask (.createGoal team period draft)
  let next := status.afterGoalCreated
  if next ≠ status then
    Program.ask (.setStatus team period next)
  return ⟨goal, next⟩

/-- Changes a goal on behalf of a team, the owner unless another is named.  The texts and the
classification change for every team; the weight is that of the acting team alone. -/
def update (id : GoalId) (asTeam : Option TeamId) (draft : GoalDraft) : Program Goal := do
  let draft ← Program.check draft.normalized
  let goal ← requireGoal id
  let team := asTeam.getD goal.team
  let _ ← requireOpen team goal.period .updateGoal
  let edited := goal.apply draft
  if goal.isOwnedBy team then
    Program.ask (.updateGoal edited.id edited.draft)
    return edited
  else
    let edited := { edited with weight := goal.weight }
    -- The share comes first: a team without one is refused before anything is written.
    Program.ask (.setTeamWeight goal.id team draft.weight)
    Program.ask (.updateGoal edited.id edited.draft)
    return edited

/-- Deletes a goal on behalf of a team, the owner unless another is named.  A team with a share
gives up the share; the owner hands the goal to the first team with a share, and only a goal that
no other team carries is removed. -/
def delete (id : GoalId) (asTeam : Option TeamId) : Program GoalDeletion := do
  let goal ← requireGoal id
  let team := asTeam.getD goal.team
  let _ ← requireOpen team goal.period .deleteGoal
  if goal.isOwnedBy team then
    let shares ← Program.ask (.shares goal.id)
    match shares with
    | heir :: _ =>
      Program.ask (.promote heir)
      return .ownershipTransferred heir.team
    | [] =>
      Program.ask (.deleteGoal goal.id)
      return .deleted
  else
    Program.ask (.removeShare goal.id team)
    return .shareRemoved

/-- Checks a team that should carry a goal: it has to exist, and unless it carries the goal already
its status has to allow it. -/
def checkTarget (goal : Goal) (shares : List Share) (statuses : Table TeamId Status)
    (team : TeamId) : Program Unit := do
  let _ ← requireTeam team
  if goal.isOwnedBy team || shares.any fun s => s.team == team then pure ()
  else
    let status := (statuses.get? team).getD .noGoals
    if status.acceptsShares then pure ()
    else Program.fail (.shareTargetLocked team status)

/-- Sets the teams that carry a goal. -/
def share (id : GoalId) (targets : List ShareTarget) : Program GoalShared := do
  let goal ← requireGoal id
  let plan ← Program.check (SharePlan.resolve goal.id goal.team targets)
  let shares ← Program.ask (.shares goal.id)
  let statuses ← Program.ask (.statuses goal.period)
  let _ ← Program.each (checkTarget goal shares statuses) plan.teams
  Program.ask (.replaceShares plan)
  return ⟨plan, plan.changesOwner goal.team⟩

end Goals

end Objectives
