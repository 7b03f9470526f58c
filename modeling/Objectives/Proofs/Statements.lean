/- # Carrying out statements

How statements and sessions run, step by step, and what can be said of them without running them: that
they change nothing, that they leave the rows, or that they leave the rows whenever they are refused.

Main definitions:

* `Text.Plain` — texts that the database takes;
* `Effect` — statements and sessions alike;
* `Effect.Keeps`, `Effect.Leaves`, `Effect.Undone` — what an effect leaves of the database;
* `Contents.Course`, `Effect.Along` — what a database has to do with what becomes of it, and effects
  that go along with it;
* `Effect.Tells` — an effect that changes rows only if it answers that it has found them.

Main results:

* `Effect.bind_run`, `Effect.adapt_run`, `Statement.reach_run`, … — the steps of a run;
* `Effect.Undone.bind`, `Effect.Undone.bind_total` — refusals that come before the rows are changed
  leave them;
* `Session.undone_transaction` — a transaction leaves the rows when it is refused, whatever it does.
-/

import Objectives.Database.Calls
import Objectives.Proofs.Table

set_option relaxedAutoImplicit false
set_option autoImplicit false

namespace Objectives

/-- A text without the character of code 0. -/
def Text.Plain (text : String) : Prop := ∀ c ∈ text.toList, c.toNat ≠ 0

instance (text : String) : Decidable (Text.Plain text) :=
  List.decidableBAll (fun c : Char => c.toNat ≠ 0) text.toList

variable {ε ε' α β : Type}

/-! ### Runs -/

namespace Effect

theorem bind_run (x : Effect ε α) (f : α → Effect ε β) (db : Contents) :
    (x >>= f) .standard db =
      match x .standard db with
      | (.ok a, db') => f a .standard db'
      | (.error e, db') => (.error e, db') := by
  show (match x .standard db with | (a, db') => ExceptT.bindCont f a .standard db') = _
  cases x .standard db with
  | mk answer db' => cases answer <;> rfl

/-- What is carried out has been carried out in all its parts. -/
theorem of_bind_run_ok {x : Effect ε α} {f : α → Effect ε β} {db db' : Contents} {b : β}
    (h : (x >>= f) .standard db = (.ok b, db')) :
    ∃ a db₁, x .standard db = (.ok a, db₁) ∧ f a .standard db₁ = (.ok b, db') := by
  rw [bind_run] at h
  split at h
  · rename_i a db₁ hx
    exact ⟨a, db₁, hx, h⟩
  · cases h

@[simp] theorem pure_run (a : α) (db : Contents) :
    (pure a : Effect ε α) .standard db = (.ok a, db) := rfl

theorem adapt_run (x : Effect ε α) (f : ε → ε') (db : Contents) :
    (x.adapt f : Effect ε' α) .standard db =
      match x .standard db with
      | (.ok a, db') => (.ok a, db')
      | (.error e, db') => (.error (f e), db') := by
  show (match x .standard db with | (answer, db') => (answer.mapError f, db')) = _
  cases x .standard db with
  | mk answer db' => cases answer <;> rfl

end Effect

namespace Statement

/-- No relation is missing. -/
theorem reach_run (relations : List Relation) (db : Contents) :
    reach relations .standard db = (.ok (), db) := rfl

theorem takeId_run (relation : Relation) (db : Contents) :
    takeId relation .standard db = (.ok (db.lastId relation + 1),
      { db with lastId := fun r => if r = relation then db.lastId relation + 1 else db.lastId r }) :=
  rfl

theorem rows_run (db : Contents) : rows .standard db = (.ok db.rows, db) := rfl

theorem change_run (f : Rows → Rows) (db : Contents) :
    change f .standard db = (.ok (), { db with rows := f db.rows }) := rfl

/-- A reference that is not refused is to a row that is there. -/
theorem of_refer_run_ok {relation : Relation} {column : String} {found : Bool} {db db' : Contents}
    (h : refer relation column found .standard db = (.ok (), db')) : found = true ∧ db' = db := by
  cases found
  · cases h
  · cases h
    exact ⟨rfl, rfl⟩

theorem refer_run (relation : Relation) (column : String) (db : Contents) :
    refer relation column true .standard db = (.ok (), db) := rfl

theorem plainTexts_run {texts : List String} (h : ∀ text ∈ texts, Text.Plain text) (db : Contents) :
    plainTexts texts .standard db = (.ok (), db) := by
  rw [plainTexts, if_neg]
  · rfl
  · simp only [List.any_eq_true, not_exists, not_and]
    intro text htext c hc hzero
    exact h text htext c hc (by simpa using hzero)

theorem plainTexts_run_of_not {texts : List String} (h : ¬ ∀ text ∈ texts, Text.Plain text)
    (db : Contents) : plainTexts texts .standard db = (.error .nulCharacter, db) := by
  rw [plainTexts, if_pos]
  · rfl
  · simp only [Text.Plain, Classical.not_forall, not_not, exists_prop] at h
    simpa only [List.any_eq_true, beq_iff_eq] using h

theorem orderAfter_run {orders : List Int} (h : orders.max?.getD 0 + 1 ≤ maxOrder) (db : Contents) :
    orderAfter orders .standard db = (.ok (orders.max?.getD 0 + 1), db) := by
  show (if maxOrder < orders.max?.getD 0 + 1 then _ else _ : Statement Int) .standard db = _
  rw [if_neg (by omega)]
  rfl

end Statement

namespace Session

theorem execute_run (context : String) (statement : Statement α) (db : Contents) :
    execute context statement .standard db =
      match statement .standard db with
      | (.ok a, db') => (.ok a, db')
      | (.error e, db') => (.error (.storage context e), db') := by
  show (statement.adapt (Failure.storage context) : Session α) .standard db = _
  rw [Effect.adapt_run]
  cases statement .standard db with
  | mk answer db' => cases answer <;> rfl

theorem execute_run_ok {statement : Statement α} {db db' : Contents} {a : α}
    (h : statement .standard db = (.ok a, db')) (context : String) :
    execute context statement .standard db = (.ok a, db') := by
  rw [execute_run, h]

theorem of_execute_run_ok {context : String} {statement : Statement α} {db db' : Contents} {a : α}
    (h : execute context statement .standard db = (.ok a, db')) :
    statement .standard db = (.ok a, db') := by
  rw [execute_run] at h
  split at h
  · rename_i hrun
    cases h
    exact hrun
  · cases h

theorem query_run (context : String) (relations : List Relation) (db : Contents) :
    query context relations .standard db = (.ok db.rows, db) := rfl

/-- After a query things go on with the rows that it has found. -/
theorem bind_query_run (context : String) (relations : List Relation) (f : Rows → Session α)
    (db : Contents) : (query context relations >>= f) .standard db = f db.rows .standard db := by
  rw [Effect.bind_run, query_run]

theorem lift_run (result : Except Failure α) (db : Contents) :
    lift result .standard db = (result, db) := rfl

/-- Results that leave the database as it is are collected like results that are all there. -/
theorem collect_run {f : α → Session β} {g : α → Except Failure β} {db : Contents}
    (hf : ∀ a, f a .standard db = (g a, db)) (list : List α) :
    collect f list .standard db = (list.mapM g, db) := by
  induction list with
  | nil => rfl
  | cons a rest ih =>
    rw [collect, Effect.bind_run, hf, List.mapM_cons]
    cases g a with
    | error e => rfl
    | ok b =>
      simp only [Effect.bind_run, ih]
      cases rest.mapM g <;> rfl

theorem expect_run_some (reason : Failure) (a : α) (db : Contents) :
    expect reason (some a) .standard db = (.ok a, db) := rfl

/-- A transaction that succeeds does what it does without being one. -/
theorem transaction_run_ok {session : Session α} {db db' : Contents} {a : α}
    (h : session .standard db = (.ok a, db')) : transaction session .standard db = (.ok a, db') := by
  rw [transaction, h]

theorem transaction_run_error {session : Session α} {db db' : Contents} {e : Failure}
    (h : session .standard db = (.error e, db')) :
    transaction session .standard db = (.error e, { db' with rows := db.rows }) := by
  rw [transaction, h]

end Session

/-! ### Effects that leave something -/

namespace Effect

variable {γ : Type} {view : Contents → γ}

/-- The effect leaves what is seen of the database as it was. -/
def Keeps (view : Contents → γ) (x : Effect ε α) : Prop := ∀ db, view (x .standard db).2 = view db

/-- The effect changes nothing. -/
def Leaves (x : Effect ε α) : Prop := x.Keeps id

/-- The effect leaves the rows if it is refused. -/
def Undone (x : Effect ε α) : Prop :=
  ∀ db e, (x .standard db).1 = .error e → (x .standard db).2.rows = db.rows

/-- The effect changes rows only if it answers that it has found some. -/
def Tells (found : α → Bool) (x : Effect ε α) : Prop :=
  ∀ db, (∀ a, (x .standard db).1 = .ok a → found a = false) → (x .standard db).2.rows = db.rows

/-- The effect takes a database to one that it is related to. -/
def Along (R : Contents → Contents → Prop) (x : Effect ε α) : Prop := ∀ db, R db (x .standard db).2

/-- The effect is never refused. -/
def Total (x : Effect ε α) : Prop := ∀ db e, (x .standard db).1 ≠ .error e

namespace Keeps

theorem of_leaves {x : Effect ε α} (hx : x.Leaves) : x.Keeps view :=
  fun db => congrArg view (hx db)

theorem pure (a : α) : (pure a : Effect ε α).Keeps view := fun _ => rfl

theorem throw (e : ε) : (throw e : Effect ε α).Keeps view := fun _ => rfl

theorem bind {x : Effect ε α} {f : α → Effect ε β} (hx : x.Keeps view) (hf : ∀ a, (f a).Keeps view) :
    (x >>= f).Keeps view := by
  intro db
  have hdb := hx db
  rw [bind_run]
  cases hrun : x .standard db with
  | mk answer db' =>
    rw [hrun] at hdb
    cases answer with
    | ok a => exact (hf a db').trans hdb
    | error e => exact hdb

theorem adapt {x : Effect ε α} (hx : x.Keeps view) (f : ε → ε') :
    Keeps view (x.adapt f : Effect ε' α) := by
  intro db
  have hdb := hx db
  rw [adapt_run]
  cases hrun : x .standard db with
  | mk answer db' =>
    rw [hrun] at hdb
    cases answer <;> exact hdb

end Keeps

theorem Total.pure (a : α) : (pure a : Effect ε α).Total := by
  intro db e h
  cases h

namespace Undone

theorem of_keeps {x : Effect ε α} (hx : x.Keeps Contents.rows) : x.Undone :=
  fun db _ _ => hx db

/-- Before the rows are changed anything can be refused. -/
theorem bind {x : Effect ε α} {f : α → Effect ε β} (hx : x.Keeps Contents.rows)
    (hf : ∀ a, (f a).Undone) : (x >>= f).Undone := by
  intro db e he
  have hdb := hx db
  rw [bind_run] at he ⊢
  cases hrun : x .standard db with
  | mk answer db' =>
    rw [hrun] at hdb he
    cases answer with
    | ok a => exact (hf a db' e he).trans hdb
    | error e' => exact hdb

/-- After the rows have been changed nothing may be refused. -/
theorem bind_total {x : Effect ε α} {f : α → Effect ε β} (hx : x.Undone) (hf : ∀ a, (f a).Total) :
    (x >>= f).Undone := by
  intro db e he
  have hdb := hx db
  rw [bind_run] at he ⊢
  cases hrun : x .standard db with
  | mk answer db' =>
    rw [hrun] at hdb he
    cases answer with
    | ok a => exact absurd he (hf a db' e)
    | error e' => exact hdb e' rfl

/-- What is done if no rows have been found is done to the rows as they were. -/
theorem bind_tells {found : α → Bool} {x : Effect ε α} {f : α → Effect ε β} (hx : x.Tells found)
    (hfound : ∀ a, found a = true → (f a).Total)
    (hmissing : ∀ a, found a = false → (f a).Undone) : (x >>= f).Undone := by
  intro db e he
  have hdb := hx db
  rw [bind_run] at he ⊢
  cases hrun : x .standard db with
  | mk answer db' =>
    rw [hrun] at hdb he
    cases answer with
    | error e' => exact hdb (by simp)
    | ok a =>
      cases ha : found a with
      | true => exact absurd he (hfound a ha db' e)
      | false => exact (hmissing a ha db' e he).trans (hdb (by simpa using ha))

theorem adapt {x : Effect ε α} (hx : x.Undone) (f : ε → ε') :
    Undone (x.adapt f : Effect ε' α) := by
  intro db e he
  have hdb := hx db
  rw [adapt_run] at he ⊢
  cases hrun : x .standard db with
  | mk answer db' =>
    rw [hrun] at hdb he
    cases answer with
    | ok a => cases he
    | error e' => exact hdb e' rfl

end Undone

namespace Tells

variable {found : α → Bool}

theorem of_keeps {x : Effect ε α} (hx : x.Keeps Contents.rows) : x.Tells found :=
  fun db _ => hx db

/-- An effect that always finds rows has nothing to answer for. -/
theorem of_found {x : Effect ε α} (hx : ∀ db, ∃ a, (x .standard db).1 = .ok a ∧ found a = true) :
    x.Tells found := by
  intro db hdb
  obtain ⟨a, ha, hfound⟩ := hx db
  rw [hdb a ha] at hfound
  cases hfound

theorem bind {x : Effect ε β} {f : β → Effect ε α} (hx : x.Keeps Contents.rows)
    (hf : ∀ b, (f b).Tells found) : (x >>= f).Tells found := by
  intro db he
  have hdb := hx db
  rw [bind_run] at he ⊢
  cases hrun : x .standard db with
  | mk answer db' =>
    rw [hrun] at hdb he
    cases answer with
    | ok b => exact (hf b db' he).trans hdb
    | error e => exact hdb

theorem adapt {x : Effect ε α} (hx : x.Tells found) (f : ε → ε') :
    Tells found (x.adapt f : Effect ε' α) := by
  intro db he
  have hdb := hx db
  rw [adapt_run] at he ⊢
  cases hrun : x .standard db with
  | mk answer db' =>
    rw [hrun] at hdb he
    cases answer with
    | ok a =>
      refine hdb fun b hb => he b ?_
      cases hb
      rfl
    | error e => exact hdb (by simp)

end Tells

end Effect

/-! ### Statements -/

namespace Statement

open Effect (Keeps Leaves Undone)

variable {γ : Type} {view : Contents → γ}

theorem leaves_reach (relations : List Relation) : Leaves (reach relations) := fun _ => rfl

theorem leaves_plainTexts (texts : List String) : Leaves (plainTexts texts) := by
  unfold plainTexts
  split
  · exact .throw _
  · exact .pure _

theorem leaves_orderAfter (orders : List Int) : Leaves (orderAfter orders) := by
  unfold orderAfter
  simp only
  split
  · exact .throw _
  · exact .pure _

theorem leaves_refer (relation : Relation) (column : String) (found : Bool) :
    Leaves (refer relation column found) := by
  cases found
  · exact .throw _
  · exact .pure _

theorem leaves_require (relation : Relation) (constraint : String) (holds : Bool) :
    Leaves (require relation constraint holds) := by
  have hread : Leaves (read : Statement Schema) := fun _ => rfl
  refine hread.bind fun schema => ?_
  split
  · exact .pure _
  · exact .throw _

theorem leaves_rows : Leaves rows := fun _ => rfl

theorem leaves_select (relations : List Relation) : Leaves (select relations) :=
  (leaves_reach relations).bind fun _ => leaves_rows

theorem keeps_reach (relations : List Relation) : Keeps view (reach relations) :=
  .of_leaves (leaves_reach relations)

theorem keeps_plainTexts (texts : List String) : Keeps view (plainTexts texts) :=
  .of_leaves (leaves_plainTexts texts)

theorem keeps_orderAfter (orders : List Int) : Keeps view (orderAfter orders) :=
  .of_leaves (leaves_orderAfter orders)

theorem keeps_refer (relation : Relation) (column : String) (found : Bool) :
    Keeps view (refer relation column found) :=
  .of_leaves (leaves_refer relation column found)

theorem keeps_rows : Keeps view rows := .of_leaves leaves_rows

theorem keeps_takeId (relation : Relation) : Keeps Contents.rows (takeId relation) := fun _ => rfl

theorem undone_change (f : Rows → Rows) : Undone (change f) := by
  intro db e he
  cases he

end Statement

/-! ### Sessions -/

namespace Session

open Effect (Leaves Undone)

theorem leaves_query (context : String) (relations : List Relation) :
    Leaves (query context relations) :=
  (Statement.leaves_select relations).adapt _

theorem leaves_lift (result : Except Failure α) : Leaves (lift result) := fun _ => rfl

theorem leaves_expect (reason : Failure) (found : Option α) : Leaves (expect reason found) := by
  cases found
  · exact .throw _
  · exact .pure _

/-- A transaction leaves the rows when it is refused, whatever it does. -/
theorem undone_transaction (session : Session α) : Undone (transaction session) :=
  fun _ _ he => rows_transaction_error he

end Session

/-! ### Effects along a course -/

/-- What a database has to do with what becomes of it by effects that change rows only in certain
ways. -/
structure Contents.Course (R : Contents → Contents → Prop) (F : (Rows → Rows) → Prop) : Prop where
  refl (db : Contents) : R db db
  trans {db db' db'' : Contents} : R db db' → R db' db'' → R db db''
  /-- Identifiers can be given. -/
  takeId (relation : Relation) (db : Contents) : R db (Statement.takeId relation .standard db).2
  /-- Rows can be changed in these ways. -/
  change {f : Rows → Rows} (hf : F f) (db : Contents) : R db { db with rows := f db.rows }
  /-- Whatever has been done to the rows can be undone. -/
  undo {db db' : Contents} (h : R db db') : R db { db' with rows := db.rows }

namespace Contents.Course

open Effect (Along Leaves)

variable {R : Contents → Contents → Prop} {F G : (Rows → Rows) → Prop} (h : Course R F)

include h

theorem mono (hFG : ∀ f, G f → F f) : Course R G :=
  { h with change := fun hf => h.change (hFG _ hf) }

theorem of_leaves {x : Effect ε α} (hx : Leaves x) : Along R x := by
  intro db
  rw [show (x .standard db).2 = db from hx db]
  exact h.refl db

theorem pure (a : α) : Along R (pure a : Effect ε α) := h.of_leaves (.pure a)

theorem throw (e : ε) : Along R (throw e : Effect ε α) := h.of_leaves (.throw e)

theorem bind {x : Effect ε α} {f : α → Effect ε β} (hx : Along R x) (hf : ∀ a, Along R (f a)) :
    Along R (x >>= f) := by
  intro db
  have hfirst := hx db
  rw [Effect.bind_run]
  cases hrun : x .standard db with
  | mk answer db' =>
    rw [hrun] at hfirst
    cases answer with
    | ok a => exact h.trans hfirst (hf a db')
    | error e => exact hfirst

omit h in
theorem adapt {x : Effect ε α} (hx : Along R x) (f : ε → ε') :
    Along R (x.adapt f : Effect ε' α) := by
  intro db
  have hfirst := hx db
  rw [Effect.adapt_run]
  cases hrun : x .standard db with
  | mk answer db' =>
    rw [hrun] at hfirst
    cases answer <;> exact hfirst

/-- A failure if some rows are not there changes nothing. -/
theorem unlessFound {x : Session Bool} (hx : Along R x) (reason : Failure) :
    Along R (x >>= fun found => if found then Pure.pure () else MonadExcept.throw reason) := by
  refine h.bind hx fun found => ?_
  split
  · exact h.pure _
  · exact h.throw _

theorem forEach {f : α → Session Unit} (hf : ∀ a, Along R (f a)) (list : List α) :
    Along R (Session.forEach f list) := by
  induction list with
  | nil => exact h.pure _
  | cons a rest ih => exact h.bind (hf a) fun _ => ih

theorem transaction {session : Session α} (hsession : Along R session) :
    Along R (Session.transaction session) := by
  intro db
  have hdb' := hsession db
  unfold Session.transaction
  cases hrun : session .standard db with
  | mk answer db' =>
    rw [hrun] at hdb'
    cases answer with
    | ok a => exact hdb'
    | error e => exact h.undo hdb'

theorem along_reach (relations : List Relation) : Along R (Statement.reach relations) :=
  h.of_leaves (Statement.leaves_reach relations)

theorem along_plainTexts (texts : List String) : Along R (Statement.plainTexts texts) :=
  h.of_leaves (Statement.leaves_plainTexts texts)

theorem along_rows : Along R Statement.rows := h.of_leaves Statement.leaves_rows

theorem along_orderAfter (orders : List Int) : Along R (Statement.orderAfter orders) :=
  h.of_leaves (Statement.leaves_orderAfter orders)

theorem along_refer (relation : Relation) (column : String) (found : Bool) :
    Along R (Statement.refer relation column found) :=
  h.of_leaves (Statement.leaves_refer relation column found)

theorem along_takeId (relation : Relation) : Along R (Statement.takeId relation) :=
  h.takeId relation

theorem along_change {f : Rows → Rows} (hf : F f) : Along R (Statement.change f) :=
  h.change hf

theorem along_query (context : String) (relations : List Relation) :
    Along R (Session.query context relations) :=
  h.of_leaves (Session.leaves_query context relations)

theorem along_lift (result : Except Failure α) : Along R (Session.lift result) :=
  h.of_leaves (Session.leaves_lift result)

theorem along_expect (reason : Failure) (found : Option α) :
    Along R (Session.expect reason found) :=
  h.of_leaves (Session.leaves_expect reason found)

end Contents.Course

end Objectives
