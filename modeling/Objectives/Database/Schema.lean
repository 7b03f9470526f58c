/- # The schema of the database

What is set up for the rows, before any of them is written.  Nothing that the program does changes it.

Main definitions:

* `Schema` — a schema;
* `Schema.standard` — the schema that the program is written for.
-/

import Objectives.Database.Relation

set_option relaxedAutoImplicit false
set_option autoImplicit false

namespace Objectives

/-- A schema, told by what is different in it from what the program is written for. -/
structure Schema where
  /-- A relation that statements do not find. -/
  missing : Option Relation
  /-- The checks that are not made, by name. -/
  liftedChecks : List String
  /-- A key result is deleted as soon as a linear range is added to it. -/
  vanishing : Bool

/-- The schema with every relation and every check, in which nothing is deleted by itself. -/
def Schema.standard : Schema := ⟨none, [], false⟩

end Objectives
