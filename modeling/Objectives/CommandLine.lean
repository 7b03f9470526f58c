/- # The command line

The program prints the rows of all teams for a period.  It takes the identifier of the period and
that of the team at the top; without a period it takes the one of today, and without a team it
takes all.

Main definitions:

* `CommandLine.Request` — what the program is asked for;
* `CommandLine.Fault` — why it fails, with the text for it;
* `CommandLine.run` — a run of the program over a store;
* `CommandLine.Exit` — what a run leaves behind.
-/

import Objectives.Json.Encode
import Objectives.Rollup.Query
import Objectives.Settings.Address
import Objectives.Settings.Environment
import Objectives.Text.Quoted

set_option relaxedAutoImplicit false
set_option autoImplicit false

namespace Objectives.CommandLine

/-- What the program is asked for. -/
structure Request where
  settings : Settings
  period : Option PeriodId
  root : Option TeamId
  deriving DecidableEq, Repr

/-- Why the program fails. -/
inductive Fault
  /-- The environment makes no settings. -/
  | unreadable
  | settings (fault : SettingsFault)
  | identifier (fault : Text.IntegerFault)
  | failure (cause : Failure)
  | noPeriod (today : Date)
  deriving DecidableEq, Repr

namespace Fault

/-- The details of a report, each with its name. -/
def detailsText (details : List (String × String)) : String :=
  ", ".intercalate (details.map fun d => Text.quoted d.1 ++ ": " ++ Text.quoted d.2)

/-- A report with its parts. -/
def reportText (r : Report) : String :=
  "DomainError \x7b code: " ++ r.code.name ++ ", message: " ++ Text.quoted r.message ++
    ", details: \x7b" ++ detailsText r.details ++ "\x7d \x7d"

/-- A fault of the settings with what it is about. -/
def settingsText (fault : SettingsFault) : String :=
  match fault.subject? with
  | some subject => fault.name ++ "(" ++ Text.quoted subject ++ ")"
  | none => fault.name

/-- The text for a fault. -/
def text : Fault → String
  | unreadable => "LoadError"
  | settings fault => settingsText fault
  | identifier fault => "ParseIntError \x7b kind: " ++ fault.name ++ " \x7d"
  | failure cause => reportText cause.report
  | noPeriod today => Text.quoted ("no period covers " ++ today.text)

end Fault

/-! ### Before the database -/

/-- An identifier among the arguments, if it is given. -/
def readArgument : Option String → Except Fault (Option Int)
  | none => .ok none
  | some text =>
    match Text.readIdentifier text with
    | .ok id => .ok (some id)
    | .error fault => .error (.identifier fault)

/-- The settings that variables make, once they are checked. -/
def readSettings (environment : Environment) : Except Fault Settings :=
  match Settings.ofEnvironment environment with
  | none => .error .unreadable
  | some settings =>
    match settings.validate with
    | .error fault => .error (.settings fault)
    | .ok () => .ok settings

/-- What the program is asked for.  Settings are checked before arguments, and the address of the
database last; arguments past the second are left alone. -/
def request (environment : Environment) (arguments : List String) : Except Fault Request := do
  let settings ← readSettings environment
  let period ← readArgument arguments.head?
  let root ← readArgument arguments.tail.head?
  match Address.check settings.database.url with
  | .ok () => return ⟨settings, period, root⟩
  | .error fault => throw (.failure (.badAddress fault))

/-! ### With the database -/

/-- The period that is asked for, or the one of today. -/
def periodOf (r : Request) (today : Date) : Program (Option PeriodId) :=
  match r.period with
  | some period => pure (some period)
  | none => do
    return (← Program.ask (.periodOn today)).map Period.id

/-- The rows that are asked for, or the fault that there is no period for today. -/
def rows (r : Request) (today : Date) : Program (Except Fault (List TeamSummary)) := do
  match ← periodOf r today with
  | none => return .error (.noPeriod today)
  | some period =>
    return .ok (← Rollup.ofHierarchy r.settings.rollup.indentUnit period r.root)

/-- A run of the program over a store. -/
def run {σ : Type} (carry : Carries σ) (environment : Environment) (arguments : List String)
    (today : Date) (store : σ) : Except Fault (List TeamSummary) := do
  let r ← request environment arguments
  match ((rows r today).run carry store).1 with
  | .ok result => result
  | .error cause => throw (.failure cause)

/-- What a run leaves behind: the number it ends with, and what it prints. -/
structure Exit where
  status : Nat
  output : Option Json
  complaint : String

/-- What a run with some result leaves behind. -/
def exit : Except Fault (List TeamSummary) → Exit
  | .ok summaries => ⟨0, some (.list Encode.teamSummary summaries), ""⟩
  | .error fault => ⟨1, none, "Error: " ++ fault.text⟩

end Objectives.CommandLine
