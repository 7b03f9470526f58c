/- # Summaries

What is shown of a team and of a goal.  Summaries are put together from the stored records each
time they are asked for.

Main definitions:

* `GoalSummary`, `TeamSummary` — a goal in a team's list, and a team's row;
* `TeamSummary.aggregate` — the row of a team with these goals;
* `KeyResultView`, `GoalDetail` — the page of a goal;
* `ShareCandidate` — a team that a goal could be shared with.
-/

import Objectives.Goal.Comment
import Objectives.Goal.Share
import Objectives.Progress

set_option relaxedAutoImplicit false
set_option autoImplicit false

namespace Objectives

/-- A goal in the list of a team. -/
structure GoalSummary where
  id : GoalId
  title : String
  priority : Priority
  /-- The weight that the goal has for the team. -/
  weight : Weight
  progress : Percentage
  isOwned : Bool
  contributingTeams : List ContributingTeam
  deriving DecidableEq, Repr

/-- How a team stands in a period. -/
structure TeamSummary where
  team : TeamId
  name : String
  type : TeamType
  /-- The number of steps from where the walk of the hierarchy began. -/
  depth : Nat
  indent : Nat
  status : Status
  progress : Percentage
  goalCount : Nat
  totalWeight : Nat
  goals : List GoalSummary
  deriving DecidableEq, Repr

/-- The greatest number of an unsigned word of 32 bits. -/
def maxWord32 : Nat := 4294967295

/-- The indent at a depth, of which the low 32 bits count; it stays within 32 bits. -/
def indentAt (depth unit : Nat) : Nat :=
  min (depth % 4294967296 * unit) maxWord32

namespace TeamSummary

/-- The row of a team with these goals.  Its progress is the average of the goals' progress by
their weights for the team. -/
def aggregate (team : Team) (depth indentUnit : Nat) (status : Status)
    (goals : List GoalSummary) : TeamSummary where
  team := team.id
  name := team.name
  type := team.type
  depth
  indent := indentAt depth indentUnit
  status
  progress := Progress.average (goals.map fun g => (g.progress, g.weight))
  goalCount := goals.length
  totalWeight := Progress.total (goals.map fun g => g.weight.value)
  goals

end TeamSummary

/-- A key result as shown, with its progress and the comments on it. -/
structure KeyResultView where
  keyResult : KeyResult
  progress : Percentage
  comments : List Comment
  deriving DecidableEq, Repr

/-- A key result as shown with its comments. -/
def KeyResult.view (k : KeyResult) (comments : List Comment) : KeyResultView :=
  ⟨k, Progress.ofKeyResult k, comments⟩

/-- The page of a goal. -/
structure GoalDetail where
  goal : Goal
  progress : Percentage
  status : Status
  keyResults : List KeyResultView
  comments : List Comment
  contributingTeams : List ContributingTeam
  deriving DecidableEq, Repr

namespace GoalDetail

/-- The page of a goal with these key results. -/
def assemble (goal : Goal) (status : Status) (keyResults : List KeyResultView)
    (comments : List Comment) (contributingTeams : List ContributingTeam) : GoalDetail where
  goal
  progress := Progress.average (keyResults.map fun k => (k.progress, k.keyResult.weight))
  status
  keyResults
  comments
  contributingTeams

/-- Whether the status forbids changes. -/
def isLocked (d : GoalDetail) : Bool := d.status.isClosed

end GoalDetail

/-- A team that a goal could be shared with. -/
structure ShareCandidate where
  team : TeamId
  name : String
  type : TeamType
  depth : Nat
  indent : Nat
  status : Status
  /-- The team carries the goal already, or its status lets it take the goal on. -/
  eligible : Bool
  /-- The team carries the goal already. -/
  selected : Bool
  /-- The weight that the team has, or the goal's own as a suggestion. -/
  weight : Weight
  deriving DecidableEq, Repr

end Objectives
