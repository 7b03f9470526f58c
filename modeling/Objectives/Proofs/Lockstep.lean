/- # Programs in lockstep

The same program is run over the store in memory and over the database.  As long as it only reads, the
two runs can be compared step by step: related replies lead to related answers, or to failures that a
caller cannot tell apart.

Main definitions:

* `SameOutcome` — answers that are related, or failures with one code and the same details;
* `ReadsAlike` — programs that change neither store and have the same outcome.

Main results:

* `ReadsAlike.bind`, `ReadsAlike.each` — lockstep is kept by what programs are written with.
-/

import Mathlib.Data.List.Forall2
import Mathlib.Data.Option.Basic
import Objectives.Database.Calls
import Objectives.Memory.Calls
import Objectives.Proofs.Refusal

set_option relaxedAutoImplicit false
set_option autoImplicit false

namespace Objectives

variable {α α' β β' : Type}

/-! ### Outcomes -/

/-- Both requests succeed with related answers, or both fail with the same code and the same details.
-/
inductive SameOutcome (A : α → α' → Prop) : Except Failure α → Except Failure α' → Prop
  | ok {a : α} {a' : α'} (h : A a a') : SameOutcome A (.ok a) (.ok a')
  | error {e e' : Failure} (code : e.code = e'.code) (details : e.details = e'.details) :
      SameOutcome A (.error e) (.error e')

/-! ### Programs that read -/

/-- Neither program changes its store, and the outcomes are the same. -/
structure ReadsAlike (m : Memory) (db : Contents) (A : α → α' → Prop) (p : Program α)
    (q : Program α') : Prop where
  memory : (p.run Memory.carry m).2 = m
  database : (q.run Contents.carry db).2 = db
  outcome : SameOutcome A (p.run Memory.carry m).1 (q.run Contents.carry db).1

namespace ReadsAlike

variable {m : Memory} {db : Contents} {A : α → α' → Prop} {B : β → β' → Prop}

theorem done {a : α} {a' : α'} (h : A a a') : ReadsAlike m db A (.done a) (.done a') :=
  ⟨rfl, rfl, .ok h⟩

theorem fail {e e' : Failure} (code : e.code = e'.code) (details : e.details = e'.details) :
    ReadsAlike m db A (.fail e) (.fail e') :=
  ⟨rfl, rfl, .error code details⟩

/-- What the two runs give: related answers, or failures alike. -/
theorem cases {p : Program α} {q : Program α'} (h : ReadsAlike m db A p q) :
    (∃ a a', A a a' ∧ p.run Memory.carry m = (.ok a, m) ∧ q.run Contents.carry db = (.ok a', db)) ∨
    ∃ e e', e.code = e'.code ∧ e.details = e'.details ∧ p.run Memory.carry m = (.error e, m) ∧
      q.run Contents.carry db = (.error e', db) := by
  obtain ⟨hm, hdb, hout⟩ := h
  generalize p.run Memory.carry m = x, q.run Contents.carry db = y at hm hdb hout
  obtain ⟨x, m'⟩ := x
  obtain ⟨y, db'⟩ := y
  cases hm
  cases hdb
  cases hout with
  | ok h => exact .inl ⟨_, _, h, rfl, rfl⟩
  | error code details => exact .inr ⟨_, _, code, details, rfl, rfl⟩

/-- A program goes on in lockstep from related answers. -/
theorem bind {p : Program α} {q : Program α'} {f : α → Program β} {g : α' → Program β'}
    (h : ReadsAlike m db A p q)
    (hfg : ∀ a a', A a a' → p.run Memory.carry m = (.ok a, m) → ReadsAlike m db B (f a) (g a')) :
    ReadsAlike m db B (p.bind f) (q.bind g) := by
  rcases h.cases with ⟨a, a', ha, hp, hq⟩ | ⟨e, e', code, details, hp, hq⟩
  · obtain ⟨hm, hdb, hout⟩ := hfg a a' ha hp
    constructor
    · rw [Program.run_bind, hp]
      exact hm
    · rw [Program.run_bind, hq]
      exact hdb
    · rw [Program.run_bind, Program.run_bind, hp, hq]
      exact hout
  · constructor
    · rw [Program.run_bind, hp]
    · rw [Program.run_bind, hq]
    · rw [Program.run_bind, Program.run_bind, hp, hq]
      exact .error code details

theorem expect {reason reason' : Failure} (code : reason.code = reason'.code)
    (details : reason.details = reason'.details) {found : Option α} {found' : Option α'}
    (h : Option.Rel A found found') :
    ReadsAlike m db A (Program.expect reason found) (Program.expect reason' found') := by
  cases h with
  | some h => exact .done h
  | none => exact .fail code details

/-- The same check on both sides. -/
theorem check (result : Except Violation α) :
    ReadsAlike m db (fun a a' => a' = a ∧ result = .ok a) (Program.check result)
      (Program.check result) := by
  cases result with
  | ok a => exact .done ⟨rfl, rfl⟩
  | error v => exact .fail rfl rfl

theorem lift {result : Except Failure α} {result' : Except Failure α'}
    (h : SameOutcome A result result') :
    ReadsAlike m db A (Program.lift result) (Program.lift result') := by
  cases h with
  | ok h => exact .done h
  | error code details => exact .fail code details

/-- Programs that run in lockstep for related elements do so for lists of them. -/
theorem each {R : α → α' → Prop} {f : α → Program β} {g : α' → Program β'}
    (hfg : ∀ a a', R a a' → ReadsAlike m db B (f a) (g a')) {list : List α} {list' : List α'}
    (h : List.Forall₂ R list list') :
    ReadsAlike m db (List.Forall₂ B) (Program.each f list) (Program.each g list') := by
  induction h with
  | nil => exact .done .nil
  | @cons a a' _ _ ha _ ih =>
    exact (hfg a a' ha).bind fun b b' hb _ => ih.bind fun bs bs' hbs _ => .done (.cons hb hbs)

/-- Programs that find something out about each element of a list find it out about all. -/
theorem each_all {P : α → Prop} {f : α → Program β} {g : α → Program β'} {list : List α}
    (hfg : ∀ a, ReadsAlike m db (fun _ _ => P a) (f a) (g a)) :
    ReadsAlike m db (fun _ _ => ∀ a ∈ list, P a) (Program.each f list) (Program.each g list) := by
  induction list with
  | nil => exact .done fun _ ha => absurd ha List.not_mem_nil
  | cons a rest ih =>
    refine (hfg a).bind fun b b' ha _ => ih.bind fun bs bs' hrest _ => .done ?_
    intro c hc
    rcases List.mem_cons.1 hc with rfl | hc
    · exact ha
    · exact hrest c hc

/-- A call that reads, from what it answers on both sides. -/
theorem ask (c c' : Call) {A : c.Reply → c'.Reply → Prop} {reply : c.Reply} {reply' : c'.Reply}
    (hm : Memory.carry c m = (.ok reply, m)) (hdb : Contents.carry c' db = (.ok reply', db))
    (h : A reply reply') : ReadsAlike m db A (Program.ask c) (Program.ask c') := by
  constructor
  · rw [run_ask, hm]
  · rw [run_ask, hdb]
  · rw [run_ask, run_ask, hm, hdb]
    exact .ok h

end ReadsAlike

end Objectives
