/- # Violations

A value that a field refuses, with the field's name and what it asks for.

Main definitions:

* `Violation` — the three ways in which a field refuses a value;
* `Violation.message` — the sentence shown for a refusal.
-/

set_option relaxedAutoImplicit false
set_option autoImplicit false

namespace Objectives

/-- Why a field refuses a value. -/
inductive Violation
  | empty (field : String)
  | outOfRange (field : String) (low high actual : Int)
  | malformed (field reason : String)
  deriving DecidableEq, Repr

namespace Violation

/-- The field that refuses the value. -/
def field : Violation → String
  | empty field => field
  | outOfRange field _ _ _ => field
  | malformed field _ => field

/-- The sentence shown for a refusal. -/
def message : Violation → String
  | empty field => s!"Field '{field}' cannot be empty"
  | outOfRange field low high actual =>
    s!"Field '{field}' must be between {low} and {high}, got {actual}"
  | malformed field reason => s!"Field '{field}' has invalid format: {reason}"

/-- A metric value that is infinite or no number. -/
def notFinite (field : String) : Violation :=
  .malformed field "must be a finite number"

end Violation

end Objectives
