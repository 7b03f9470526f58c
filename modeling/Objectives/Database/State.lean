/- # The database

The relations with the counters for their identifiers, and what can be done with them: a statement
is refused as a whole or carried out as a whole, and several statements can be put into one
transaction.  The schema is no part of what statements change; they are carried out under one.

Main definitions:

* `Contents` — the relations and the counters;
* `Statement` — what the database carries out or refuses;
* `Session` — statements one after the other, with the failures that callers are told;
* `Session.transaction` — statements that are undone together.

Main results:

* `Session.rows_transaction_error` — a transaction that fails leaves the rows as they were.
-/

import Objectives.Database.Rows
import Objectives.Database.Schema
import Objectives.Failure

set_option relaxedAutoImplicit false
set_option autoImplicit false

namespace Objectives

/-- What is in the database. -/
structure Contents where
  rows : Rows
  /-- The last identifier that was given in each relation. -/
  lastId : Relation → Int

namespace Contents

/-- A database without rows. -/
def empty : Contents := ⟨.empty, fun _ => 0⟩

end Contents

/-- What is done to the database under some schema, and answers or is refused. -/
abbrev Effect (ε α : Type) : Type := ExceptT ε (ReaderT Schema (StateM Contents)) α

/-- What the database carries out or refuses. -/
abbrev Statement (α : Type) : Type := Effect StorageFault α

/-- Statements one after the other, up to the first failure. -/
abbrev Session (α : Type) : Type := Effect Failure α

/-! ### Statements -/

namespace Statement

/-- Refuses a statement that names a missing relation. -/
def reach (relations : List Relation) : Statement Unit := do
  match (← read).missing with
  | some relation =>
    if relations.contains relation then throw (.missingRelation relation) else pure ()
  | none => pure ()

/-- Refuses texts with the character of code 0. -/
def plainTexts (texts : List String) : Statement Unit :=
  if texts.any fun text => text.toList.any fun c => c.toNat == 0 then throw .nulCharacter
  else pure ()

/-- Gives the next identifier of a relation.  It is not given again, whatever becomes of the
statement. -/
def takeId (relation : Relation) : Statement Int := do
  let id := (← get).lastId relation + 1
  modify fun db => { db with lastId := fun r => if r = relation then id else db.lastId r }
  return id

/-- The greatest key that orders siblings. -/
def maxOrder : Int := 2147483647

/-- The key after all others of some siblings. -/
def orderAfter (orders : List Int) : Statement Int :=
  let order := orders.max?.getD 0 + 1
  if maxOrder < order then throw .integerOutOfRange else pure order

/-- Refuses a reference to a row that is not there. -/
def refer (relation : Relation) (column : String) (found : Bool) : Statement Unit :=
  if found then pure () else throw (.foreignKey relation column)

/-- Refuses a row that breaks a check, if the check is made. -/
def require (relation : Relation) (constraint : String) (holds : Bool) : Statement Unit := do
  if holds || (← read).liftedChecks.contains constraint then pure ()
  else throw (.check relation constraint)

/-- The present rows. -/
def rows : Statement Rows := do
  return (← get).rows

/-- Changes the rows. -/
def change (f : Rows → Rows) : Statement Unit :=
  modify fun db => { db with rows := f db.rows }

/-- The rows as they are, if none of some relations is missing. -/
def select (relations : List Relation) : Statement Rows := do
  reach relations
  rows

end Statement

/-! ### Sessions -/

namespace Session

variable {α : Type}

/-- Carries out a statement; a refusal is told with what was being done. -/
def execute (context : String) (statement : Statement α) : Session α :=
  statement.adapt (Failure.storage context)

/-- The rows as they are, for a query. -/
def query (context : String) (relations : List Relation) : Session Rows :=
  execute context (Statement.select relations)

/-- Goes on if a result is no failure. -/
def lift (result : Except Failure α) : Session α := ExceptT.mk (pure result)

/-- The value that should be there. -/
def expect (reason : Failure) : Option α → Session α
  | some a => pure a
  | none => throw reason

/-- The results for the elements of a list, in order. -/
def collect {β : Type} (f : α → Session β) : List α → Session (List β)
  | [] => pure []
  | a :: rest => do
    let b ← f a
    let bs ← collect f rest
    return b :: bs

/-- Does something for each element of a list, in order. -/
def forEach (f : α → Session Unit) : List α → Session Unit
  | [] => pure ()
  | a :: rest => do
    f a
    forEach f rest

/-- Statements that are undone together if one of them fails.  Identifiers stay given. -/
def transaction (session : Session α) : Session α := fun schema db =>
  match session schema db with
  | (.ok a, db') => (.ok a, db')
  | (.error e, db') => (.error e, { db' with rows := db.rows })

/-- A transaction that fails leaves the rows as they were. -/
theorem rows_transaction_error {session : Session α} {schema : Schema} {db : Contents} {e : Failure}
    (h : (transaction session schema db).1 = .error e) :
    (transaction session schema db).2.rows = db.rows := by
  unfold transaction at *
  split at h
  · cases h
  · rfl

end Session

end Objectives
