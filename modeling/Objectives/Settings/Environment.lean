/- # Settings from the environment

A variable whose name starts with the prefix sets one value: what follows the prefix is a path to
it.  Capitals do not count in names.  A part of the settings is a record, whose settings go by
name, or a list, whose settings go by place, in the order in which they are declared.

Main definitions:

* `Environment.path?` — the path to what a variable sets;
* `Environment.tree` — the values of all variables;
* `Settings.ofEnvironment` — the settings, if every value fits.
-/

import Objectives.Collection.Sorting
import Objectives.Settings.Basic
import Objectives.Settings.Tree

set_option relaxedAutoImplicit false
set_option autoImplicit false

namespace Objectives

/-- Variables with their values. -/
abbrev Environment : Type := List (String × String)

namespace Environment

/-! ### Variables -/

/-- What the names of the variables start with. -/
def namespaceMark : String := "okr_engine__"

/-- A character without regard to capitals.  Other capitals than the ASCII letters and the sign of
the kelvin, whose small letter is an ASCII letter, are left alone, because no name has one. -/
def small (c : Char) : Char :=
  if c == '\u212a' then 'k' else c.toLower

/-- The path to what a variable sets, if its name starts with the mark and spells one. -/
def path? (name : String) : Option (List Tree.Step) :=
  let name := name.map small
  if name.startsWith namespaceMark then
    Tree.path? (String.ofList (name.toList.drop namespaceMark.length))
  else none

/-- The values of all variables.  They are set in the order of their names, and of two variables
of one name the later is set last. -/
def tree (environment : Environment) : Tree :=
  (sortBy (fun a b => !decide (b.1 < a.1)) environment).foldl
    (fun tree entry =>
      match path? entry.1 with
      | some path => tree.put (Scalar.ofText entry.2) path
      | none => tree)
    (.record [])

/-! ### Parts -/

/-- A part of the settings, which is empty if no variable sets anything in it.  A value is no
part. -/
def part? (tree : Tree) (name : String) : Option Tree :=
  match tree.fields.lookup name with
  | none => some (.record [])
  | some (.record fields) => some (.record fields)
  | some (.list length items) => some (.list length items)
  | some (.value _) => none
  | some .missing => none

/-- A setting of a part, by its place and its name.  Without one the default counts, and one that
does not fit is none. -/
def setting {α : Type} (part : Tree) (place : Nat) (name : String) (read : Scalar → Option α)
    (default? : Option α) : Option α :=
  match part.entry? name place with
  | none => default?
  | some (.value s) => read s
  | some _ => none

end Environment

namespace Settings

open Environment (part? setting)

/-- The settings that variables make, if the address of the database is among them and every value
fits. -/
def ofEnvironment (environment : Environment) : Option Settings := do
  let text := fun s : Scalar => some s.asText
  let tree := environment.tree
  let part ← part? tree "database"
  let database : DatabaseSettings := {
    url := ← setting part 0 "url" text none
    minConnections := ← setting part 1 "min_connections" Scalar.asNat32 (some 1)
    maxConnections := ← setting part 2 "max_connections" Scalar.asNat32 (some 10)
    acquireTimeout := ← setting part 3 "acquire_timeout_secs" Scalar.asNat64 (some 30)
    runMigrations := ← setting part 4 "run_migrations" Scalar.asBool (some false) }
  let part ← part? tree "logging"
  let logging : LoggingSettings := {
    level := ← setting part 0 "level" text (some "info")
    json := ← setting part 1 "json" Scalar.asBool (some false) }
  let part ← part? tree "rollup"
  let rollup : RollupSettings := {
    indentUnit := ← setting part 0 "indent_unit" Scalar.asNat32 (some 24) }
  return { database, logging, rollup }

end Settings

end Objectives
