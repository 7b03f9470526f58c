/- # Goals

A goal belongs to one team for one period.  Its weight is that of the owner; other teams that
carry the goal have weights of their own.

Main definitions:

* `Priority`, `WorkType`, `FocusType` — how a goal is classified;
* `GoalDraft` — the fields that can be edited, as submitted;
* `Goal` — a goal with its place;
* `GoalDraft.normalized`, `Goal.apply` — tidying a draft and taking it over.
-/

import Objectives.Identifier
import Objectives.Vocabulary
import Objectives.Weight
import Objectives.Text.Blank

set_option relaxedAutoImplicit false
set_option autoImplicit false

namespace Objectives

/-! ### Classification -/

/-- The urgency of a goal, `p0` being the most urgent. -/
inductive Priority
  | p0
  | p1
  | p2
  | p3
  deriving DecidableEq, Repr, Inhabited

namespace Priority

/-- The stored name. -/
def name : Priority → String
  | p0 => "P0"
  | p1 => "P1"
  | p2 => "P2"
  | p3 => "P3"

instance : Vocabulary Priority where
  all := [p0, p1, p2, p3]
  name := name
  field := "priority"
  noun := "value"

/-- A priority is found by its name. -/
@[simp] theorem find?_name (p : Priority) : Vocabulary.find? p.name = some p := by
  cases p <;> decide

end Priority

/-- What kind of work a goal is. -/
inductive WorkType
  | discovery
  | delivery
  deriving DecidableEq, Repr, Inhabited

namespace WorkType

/-- The stored name. -/
def name : WorkType → String
  | discovery => "Discovery"
  | delivery => "Delivery"

instance : Vocabulary WorkType where
  all := [discovery, delivery]
  name := name
  field := "work_type"
  noun := "value"

/-- A kind of work is found by its name. -/
@[simp] theorem find?_name (w : WorkType) : Vocabulary.find? w.name = some w := by
  cases w <;> decide

end WorkType

/-- The strategic focus of a goal. -/
inductive FocusType
  | profitability
  | stability
  | speedEfficiency
  | techIndependence
  deriving DecidableEq, Repr, Inhabited

namespace FocusType

/-- The stored name. -/
def name : FocusType → String
  | profitability => "PROFITABILITY"
  | stability => "STABILITY"
  | speedEfficiency => "SPEED_EFFICIENCY"
  | techIndependence => "TECH_INDEPENDENCE"

instance : Vocabulary FocusType where
  all := [profitability, stability, speedEfficiency, techIndependence]
  name := name
  field := "focus_type"
  noun := "value"

/-- A focus is found by its name. -/
@[simp] theorem find?_name (f : FocusType) : Vocabulary.find? f.name = some f := by
  cases f <;> decide

end FocusType

/-! ### Goals -/

/-- The fields of a goal that can be edited. -/
structure GoalDraft where
  title : String
  description : String
  priority : Priority
  weight : Weight
  workType : WorkType
  focusType : FocusType
  ownerText : String
  deriving DecidableEq, Repr

namespace GoalDraft

/-- The draft with its texts trimmed; a title has to remain. -/
def normalized (draft : GoalDraft) : Except Violation GoalDraft :=
  let title := Text.trim draft.title
  if title.isEmpty then .error (.empty "title")
  else .ok { draft with
    title
    description := Text.trim draft.description
    ownerText := Text.trim draft.ownerText }

end GoalDraft

/-- A goal. -/
structure Goal where
  id : GoalId
  /-- The team that owns the goal. -/
  team : TeamId
  period : PeriodId
  title : String
  description : String
  priority : Priority
  /-- The weight that the goal has for its owner. -/
  weight : Weight
  workType : WorkType
  focusType : FocusType
  ownerText : String
  /-- The key that orders the goals of one team in one period. -/
  sortOrder : Int
  deriving DecidableEq, Repr

namespace Goal

/-- The goal of a draft, in its place. -/
def ofDraft (id : GoalId) (team : TeamId) (period : PeriodId) (sortOrder : Int)
    (draft : GoalDraft) : Goal where
  id
  team
  period
  title := draft.title
  description := draft.description
  priority := draft.priority
  weight := draft.weight
  workType := draft.workType
  focusType := draft.focusType
  ownerText := draft.ownerText
  sortOrder

/-- The fields that can be edited. -/
def draft (g : Goal) : GoalDraft where
  title := g.title
  description := g.description
  priority := g.priority
  weight := g.weight
  workType := g.workType
  focusType := g.focusType
  ownerText := g.ownerText

/-- The goal with its editable fields taken from a draft; its identity, owner, period and place
stay. -/
def apply (g : Goal) (draft : GoalDraft) : Goal :=
  ofDraft g.id g.team g.period g.sortOrder draft

/-- A goal is the goal of its own draft. -/
@[simp] theorem apply_draft (g : Goal) : g.apply g.draft = g := rfl

/-- The last draft counts. -/
@[simp] theorem draft_apply (g : Goal) (d : GoalDraft) : (g.apply d).draft = d := rfl

/-- Whether the team owns the goal. -/
def isOwnedBy (g : Goal) (team : TeamId) : Bool := g.team == team

end Goal

end Objectives
