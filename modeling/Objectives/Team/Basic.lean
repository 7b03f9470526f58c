/- # Teams

A team has a tier and, unless it is at the top, a parent.

Main definitions:

* `TeamType` — the three tiers;
* `Team` — a team;
* `Team.le` — the order in which teams are listed.

Main results:

* `TeamType.find?_name` — a tier is found by its name;
* `Team.le_total`, `Team.le_trans` — teams can be sorted.
-/

import Objectives.Identifier
import Objectives.Vocabulary

set_option relaxedAutoImplicit false
set_option autoImplicit false

namespace Objectives

/-- The tier of a team. -/
inductive TeamType
  | cluster
  | unit
  | team
  deriving DecidableEq, Repr, Inhabited

namespace TeamType

/-- The stored name. -/
def name : TeamType → String
  | cluster => "cluster"
  | unit => "unit"
  | team => "team"

instance : Vocabulary TeamType where
  all := [cluster, unit, team]
  name := name
  field := "team_type"
  noun := "team type"

/-- A tier is found by its name. -/
@[simp] theorem find?_name (type : TeamType) : Vocabulary.find? type.name = some type := by
  cases type <;> decide

end TeamType

/-- A team. -/
structure Team where
  id : TeamId
  name : String
  type : TeamType
  parent : Option TeamId
  deriving DecidableEq, Repr

namespace Team

/-- A team without a parent of its own. -/
def isRoot (t : Team) : Bool := t.parent.isNone

/-- The order of a listing: by name, then by identifier. -/
def le (a b : Team) : Bool :=
  a.name < b.name || (a.name == b.name && a.id ≤ b.id)

/-- Of two teams one is listed first. -/
theorem le_total (a b : Team) : le a b = true ∨ le b a = true := by
  simp only [le, Bool.or_eq_true, Bool.and_eq_true, decide_eq_true_eq, beq_iff_eq]
  rcases Std.lt_trichotomy a.name b.name with h | h | h
  · exact .inl (.inl h)
  · rcases Int.le_total a.id b.id with g | g
    · exact .inl (.inr ⟨h, g⟩)
    · exact .inr (.inr ⟨h.symm, g⟩)
  · exact .inr (.inl h)

/-- The order of a listing is transitive. -/
theorem le_trans (a b c : Team) (hab : le a b = true) (hbc : le b c = true) :
    le a c = true := by
  simp only [le, Bool.or_eq_true, Bool.and_eq_true, decide_eq_true_eq, beq_iff_eq] at *
  rcases hab with h | ⟨h, g⟩ <;> rcases hbc with h' | ⟨h', g'⟩
  · exact .inl (String.lt_trans h h')
  · exact .inl (h' ▸ h)
  · exact .inl (h ▸ h')
  · exact .inr ⟨h.trans h', Int.le_trans g g'⟩

end Team

end Objectives
