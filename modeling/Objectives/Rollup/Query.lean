/- # Queries

What is read to show the teams, their goals and their progress.

Main definitions:

* `Rollup.goalSummaries` — the goals of a team in a period;
* `Rollup.ofHierarchy`, `Rollup.ofTeam` — the rows of all teams below a root, and that of one team;
* `Rollup.forest`, `Rollup.goalDetail`, `Rollup.shareCandidates` — the hierarchy, the page of a
  goal, and the teams that it could be shared with.
-/

import Objectives.Command.Goals
import Objectives.Rollup.Summary

set_option relaxedAutoImplicit false
set_option autoImplicit false

namespace Objectives.Rollup

/-- The hierarchy of the stored teams. -/
def hierarchy : Program Hierarchy := do
  return Hierarchy.ofList (← Program.ask .teams)

/-- A goal in the list of a team. -/
def goalSummary (hierarchy : Hierarchy) (listed : TeamGoal) : Program GoalSummary := do
  let keyResults ← Program.ask (.keyResultsOf listed.goal.id)
  let shares ← Program.ask (.shares listed.goal.id)
  return {
    id := listed.goal.id
    title := listed.goal.title
    priority := listed.goal.priority
    weight := listed.weight
    progress := Progress.ofKeyResults keyResults
    isOwned := listed.isOwned
    contributingTeams := contributingTeams listed.goal shares hierarchy }

/-- The goals of a team in a period. -/
def goalSummaries (hierarchy : Hierarchy) (team : TeamId) (period : PeriodId) :
    Program (List GoalSummary) := do
  let goals ← Program.ask (.goalsOf team period)
  Program.each (goalSummary hierarchy) goals

/-- The trees of teams below a root, or all of them. -/
def forest (root : Option TeamId) : Program (List TeamNode) := do
  let hierarchy ← hierarchy
  Program.lift (hierarchy.forest root)

/-- The rows of the teams below a root, or of all teams, in the order of a walk. -/
def ofHierarchy (indentUnit : Nat) (period : PeriodId) (root : Option TeamId) :
    Program (List TeamSummary) := do
  let _ ← requirePeriod period
  let hierarchy ← hierarchy
  let entries ← Program.lift (hierarchy.walk root)
  let statuses ← Program.ask (.statuses period)
  Program.each
    (fun entry => do
      let goals ← goalSummaries hierarchy entry.team.id period
      let status := (statuses.get? entry.team.id).getD .noGoals
      return TeamSummary.aggregate entry.team entry.depth indentUnit status goals)
    entries

/-- The row of one team. -/
def ofTeam (team : TeamId) (period : PeriodId) : Program TeamSummary := do
  let _ ← requirePeriod period
  let hierarchy ← hierarchy
  let team ← Program.expect (.teamMissing team) (hierarchy.get? team)
  let status ← Program.ask (.status team.id period)
  let goals ← goalSummaries hierarchy team.id period
  return TeamSummary.aggregate team 0 0 status goals

/-- The page of a goal. -/
def goalDetail (id : GoalId) : Program GoalDetail := do
  let goal ← requireGoal id
  let keyResults ← Program.ask (.keyResultsOf goal.id)
  let views ← Program.each
    (fun keyResult : KeyResult => do
      return keyResult.view (← Program.ask (.comments (.keyResult keyResult.id))))
    keyResults
  let hierarchy ← hierarchy
  let shares ← Program.ask (.shares goal.id)
  let status ← Program.ask (.status goal.team goal.period)
  let comments ← Program.ask (.comments (.goal goal.id))
  return GoalDetail.assemble goal status views comments
    (contributingTeams goal shares hierarchy)

/-- A team as a candidate for a goal. -/
def shareCandidate (goal : Goal) (shares : List Share) (statuses : Table TeamId Status)
    (indentUnit : Nat) (entry : WalkEntry) : ShareCandidate :=
  let team := entry.team
  let status := (statuses.get? team.id).getD .noGoals
  let selected := goal.isOwnedBy team.id || shares.any fun s => s.team == team.id
  { team := team.id
    name := team.name
    type := team.type
    depth := entry.depth
    indent := indentAt entry.depth indentUnit
    status
    eligible := selected || status.acceptsShares
    selected
    weight := effectiveWeight goal team.id shares }

/-- All teams, in the order of a walk, as candidates for a goal. -/
def shareCandidates (indentUnit : Nat) (id : GoalId) : Program (List ShareCandidate) := do
  let goal ← requireGoal id
  let shares ← Program.ask (.shares goal.id)
  let statuses ← Program.ask (.statuses goal.period)
  let hierarchy ← hierarchy
  let entries ← Program.lift (hierarchy.walk none)
  return entries.map (shareCandidate goal shares statuses indentUnit)

end Objectives.Rollup
