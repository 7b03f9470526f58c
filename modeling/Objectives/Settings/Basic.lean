/- # Settings

What the program is told about its surroundings: the database, the log, and how rows are indented.

Main definitions:

* `Settings` — the settings, with a default for each but the address of the database;
* `SettingsFault` — why settings are refused;
* `Settings.validate` — the check.

Main results:

* `Settings.validate_eq_ok_iff` — which settings pass.
-/

import Objectives.Text.Blank

set_option relaxedAutoImplicit false
set_option autoImplicit false

namespace Objectives

/-- How to reach the database. -/
structure DatabaseSettings where
  url : String
  minConnections : Nat := 1
  maxConnections : Nat := 10
  /-- For how many seconds to wait for a connection. -/
  acquireTimeout : Nat := 30
  /-- Whether the relations are set up at the start. -/
  runMigrations : Bool := false
  deriving DecidableEq, Repr

/-- What to log. -/
structure LoggingSettings where
  /-- A level, or a list of levels by part of the program. -/
  level : String := "info"
  json : Bool := false
  deriving DecidableEq, Repr

/-- How to show a hierarchy. -/
structure RollupSettings where
  indentUnit : Nat := 24
  deriving DecidableEq, Repr

/-- The settings. -/
structure Settings where
  database : DatabaseSettings
  logging : LoggingSettings := {}
  rollup : RollupSettings := {}
  deriving DecidableEq, Repr

/-- Why settings are refused. -/
inductive SettingsFault
  | missing (name : String)
  | databaseUrl
  | poolSize
  | poolTooLarge
  | logLevel (level : String)
  | indentUnit
  deriving DecidableEq, Repr

namespace SettingsFault

/-- The name of a fault. -/
def name : SettingsFault → String
  | missing _ => "MissingRequired"
  | databaseUrl => "InvalidDatabaseUrl"
  | poolSize => "InvalidPoolSize"
  | poolTooLarge => "PoolSizeTooLarge"
  | logLevel _ => "InvalidLogLevel"
  | indentUnit => "InvalidIndentUnit"

/-- What a fault is about. -/
def subject? : SettingsFault → Option String
  | missing name => some name
  | logLevel level => some level
  | _ => none

/-- The sentence for a fault. -/
def message : SettingsFault → String
  | missing name => s!"Required configuration missing: {name}"
  | databaseUrl => "Invalid database URL format"
  | poolSize => "Pool sizes must satisfy 0 < min_connections <= max_connections"
  | poolTooLarge => "Pool size exceeds maximum allowed (100)"
  | logLevel level => s!"Invalid log level: {level}"
  | indentUnit => "Rollup indent unit must be positive"

end SettingsFault

namespace DatabaseSettings

/-- Whether the address names the protocol of the database. -/
def hasScheme (url : String) : Bool :=
  url.startsWith "postgres://" || url.startsWith "postgresql://"

/-- Checks the address, then the numbers of connections. -/
def validate (s : DatabaseSettings) : Except SettingsFault Unit :=
  if s.url.isEmpty then .error (.missing "DATABASE_URL")
  else if !hasScheme s.url then .error .databaseUrl
  else if s.maxConnections = 0 ∨ s.maxConnections < s.minConnections then .error .poolSize
  else if 100 < s.maxConnections then .error .poolTooLarge
  else .ok ()

end DatabaseSettings

namespace LoggingSettings

/-- The plain levels. -/
def levels : List String := ["trace", "debug", "info", "warn", "error"]

/-- Checks the level.  A list of levels by part is let through. -/
def validate (s : LoggingSettings) : Except SettingsFault Unit :=
  let level := Text.trim s.level
  if level.isEmpty then .error (.missing "LOGGING__LEVEL")
  else if level.contains '=' || levels.contains level.toLower then .ok ()
  else .error (.logLevel level)

end LoggingSettings

namespace RollupSettings

/-- Checks the indent. -/
def validate (s : RollupSettings) : Except SettingsFault Unit :=
  if s.indentUnit = 0 then .error .indentUnit else .ok ()

end RollupSettings

namespace Settings

/-- Checks the database, the log and the indent, in this order. -/
def validate (s : Settings) : Except SettingsFault Unit :=
  match s.database.validate with
  | .error e => .error e
  | .ok () =>
    match s.logging.validate with
    | .error e => .error e
    | .ok () => s.rollup.validate

/-- Settings pass if each part does. -/
theorem validate_eq_ok_iff (s : Settings) :
    s.validate = .ok () ↔
      s.database.validate = .ok () ∧ s.logging.validate = .ok () ∧ s.rollup.validate = .ok () := by
  unfold validate
  cases hd : s.database.validate with
  | error e => simp
  | ok u =>
    cases hl : s.logging.validate with
    | error e => simp
    | ok u => simp

end Settings

end Objectives
