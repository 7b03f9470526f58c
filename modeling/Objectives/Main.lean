/- # The program

Prints the rows of all teams for a period, as `Objectives.CommandLine` says.  The rows are kept in
the program, which starts without any.

Main definitions:

* `main` — the program.
-/

import Objectives.CommandLine
import Objectives.Database.Calls
import Std.Time.Format

set_option relaxedAutoImplicit false
set_option autoImplicit false

namespace Objectives.CommandLine

/-- The names of the variables that make settings. -/
def variableNames : List String :=
  ["DATABASE__URL", "DATABASE__MIN_CONNECTIONS", "DATABASE__MAX_CONNECTIONS",
    "DATABASE__ACQUIRE_TIMEOUT_SECS", "DATABASE__RUN_MIGRATIONS", "LOGGING__LEVEL",
    "LOGGING__JSON", "ROLLUP__INDENT_UNIT"].map fun name => "OKR_ENGINE__" ++ name

/-- The variables of the environment. -/
def environment : IO Environment := do
  let values ← variableNames.mapM fun name => do
    return (← IO.getEnv name).map fun value => (name, value)
  return values.filterMap id

/-- The date of today. -/
def today : IO Date := do
  let now ← Std.Time.PlainDate.now
  return ⟨now.year.toInt, now.month.toNat, now.day.toNat⟩

end Objectives.CommandLine

open Objectives in
/-- Runs the program. -/
def main (arguments : List String) : IO UInt32 := do
  let result := CommandLine.run Contents.carry (← CommandLine.environment) arguments
    (← CommandLine.today) Contents.empty
  let exit := CommandLine.exit result
  match exit.output with
  | some json => IO.println json.pretty
  | none => IO.eprintln exit.complaint
  return UInt32.ofNat exit.status
