/- # The status of a team in a period

Each team has one status in each period; a pair without a stored status has no goals yet.

Main definitions:

* `Status` — the five states;
* `Status.isClosed`, `Status.acceptsShares` — what a state forbids and allows;
* `Status.afterGoalCreated` — the state once a goal has been created.

Main results:

* `Status.find?_name` — a status is found by its name;
* `Status.allows_all` — every state may follow every other, a closed period can be reopened.
-/

import Objectives.Vocabulary
import Objectives.Lifecycle

set_option relaxedAutoImplicit false
set_option autoImplicit false

namespace Objectives

/-- How far a team is with its goals of a period. -/
inductive Status
  | noGoals
  | forming
  | inProgress
  | validated
  | closed
  deriving DecidableEq, Repr, Inhabited

namespace Status

/-- Every status, in the order of the lifecycle. -/
def all : List Status := [noGoals, forming, inProgress, validated, closed]

/-- The stored name. -/
def name : Status → String
  | noGoals => "no_goals"
  | forming => "forming"
  | inProgress => "in_progress"
  | validated => "validated"
  | closed => "closed"

/-- The words shown to people. -/
def label : Status → String
  | noGoals => "No goals"
  | forming => "Forming"
  | inProgress => "In progress"
  | validated => "Validated"
  | closed => "Closed"

/-- The state's name in a refused move. -/
def title : Status → String
  | noGoals => "NoGoals"
  | forming => "Forming"
  | inProgress => "InProgress"
  | validated => "Validated"
  | closed => "Closed"

instance : Vocabulary Status where
  all := all
  name := name
  field := "status"
  noun := "status"

/-- Any status may be set whatever the present one is. -/
instance : Lifecycle Status where
  states := all
  allows _ _ := true
  title := title

/-- A status is found by its name. -/
@[simp] theorem find?_name (status : Status) : Vocabulary.find? status.name = some status := by
  cases status <;> decide

/-- Every state may follow every other. -/
@[simp] theorem allows_all (current next : Status) : Lifecycle.allows current next = true := rfl

/-- Goals and their key results are not changed any more. -/
def isClosed (status : Status) : Bool := status == closed

/-- Other teams may still hand goals to the team. -/
def acceptsShares : Status → Bool
  | validated | closed => false
  | _ => true

/-- The first goal starts the forming of a goal set; later ones change nothing. -/
def afterGoalCreated : Status → Status
  | noGoals => forming
  | status => status

end Status

end Objectives
