/- # Kinds of key results

A key result is measured in one of four ways.

Main definitions:

* `Kind` — the four ways, with their stored names.
-/

import Objectives.Vocabulary

set_option relaxedAutoImplicit false
set_option autoImplicit false

namespace Objectives

/-- How a key result is measured. -/
inductive Kind
  | project
  | percent
  | linear
  | boolean
  deriving DecidableEq, Repr, Inhabited

namespace Kind

/-- The stored name. -/
def name : Kind → String
  | project => "PROJECT"
  | percent => "PERCENT"
  | linear => "LINEAR"
  | boolean => "BOOLEAN"

instance : Vocabulary Kind where
  all := [project, percent, linear, boolean]
  name := name
  field := "kind"
  noun := "key result kind"

/-- A kind is found by its name. -/
@[simp] theorem find?_name (k : Kind) : Vocabulary.find? k.name = some k := by
  cases k <;> decide

end Kind

end Objectives
