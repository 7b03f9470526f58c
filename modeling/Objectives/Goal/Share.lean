/- # Shares

A goal can be carried by other teams than its owner.  The owner's weight is that of the goal; every
other team has a share with its own weight.

Main definitions:

* `Share`, `ShareTarget` — a team's share, and a team that should carry a goal;
* `SharePlan.resolve` — who owns the goal and who shares in it, after a request;
* `TeamGoal` — a goal in the list of a team;
* `effectiveWeight` — the weight of a goal for a team;
* `contributingTeams` — the teams that carry a goal.
-/

import Objectives.Goal.Basic
import Objectives.Team.Hierarchy

set_option relaxedAutoImplicit false
set_option autoImplicit false

namespace Objectives

/-- The share of a team in a goal of another. -/
structure Share where
  goal : GoalId
  team : TeamId
  weight : Weight
  sortOrder : Int
  deriving DecidableEq, Repr

/-- A team that should carry a goal, and at which weight. -/
structure ShareTarget where
  team : TeamId
  weight : Weight
  deriving DecidableEq, Repr

/-! ### Plans -/

/-- Who should own a goal and who should share in it. -/
structure SharePlan where
  goal : GoalId
  owner : ShareTarget
  shares : List ShareTarget
  deriving DecidableEq, Repr

namespace SharePlan

/-- The plan of a request.  A team that is named twice counts where it is named first.  The present
owner keeps the goal if it is named; else the first team named becomes the owner. -/
def resolve (goal : GoalId) (currentOwner : TeamId) (targets : List ShareTarget) :
    Except Violation SharePlan :=
  let teams := distinctBy ShareTarget.team targets
  match (teams.find? fun t => t.team == currentOwner).or teams.head? with
  | none => .error (.empty "teams")
  | some owner => .ok ⟨goal, owner, teams.filter fun t => t.team != owner.team⟩

/-- Whether the goal goes to another team. -/
def changesOwner (plan : SharePlan) (currentOwner : TeamId) : Bool :=
  plan.owner.team != currentOwner

/-- The owner, then the teams that share. -/
def teams (plan : SharePlan) : List TeamId :=
  plan.owner.team :: plan.shares.map ShareTarget.team

end SharePlan

/-! ### Goals of a team -/

/-- A goal in the list of a team, with the weight and the key it has there. -/
structure TeamGoal where
  team : TeamId
  goal : Goal
  weight : Weight
  sortOrder : Int
  deriving DecidableEq, Repr

namespace TeamGoal

/-- Whether the team owns the goal. -/
def isOwned (t : TeamGoal) : Bool := t.goal.isOwnedBy t.team

end TeamGoal

/-- The weight of a goal for a team: the goal's own for the owner, that of the first share for a
team with a share, and the goal's own for any other team. -/
def effectiveWeight (goal : Goal) (team : TeamId) (shares : List Share) : Weight :=
  if goal.isOwnedBy team then goal.weight
  else
    match shares.find? fun s => s.team == team with
    | some share => share.weight
    | none => goal.weight

/-- A team that carries a goal, as listed with it. -/
structure ContributingTeam where
  team : TeamId
  name : String
  type : TeamType
  weight : Weight
  isOwner : Bool
  deriving DecidableEq, Repr

/-- A team as listed with a goal. -/
def contributingTeam (goal : Goal) (shares : List Share) (team : Team) : ContributingTeam where
  team := team.id
  name := team.name
  type := team.type
  weight := effectiveWeight goal team.id shares
  isOwner := goal.isOwnedBy team.id

/-- The owner and the teams with a share, each once and in the order of teams.  A team that is not
listed any more is left out. -/
def contributingTeams (goal : Goal) (shares : List Share) (hierarchy : Hierarchy) :
    List ContributingTeam :=
  let ids := distinctBy id (goal.team :: shares.map Share.team)
  (sortBy Team.le (ids.filterMap hierarchy.get?)).map (contributingTeam goal shares)

end Objectives
