/- # Programs over a store

What a request does to a store is a program: calls one after the other, each chosen by the replies
before it.  A call that fails ends the program.  A program says nothing of how a store works, so one
program runs over every store; and as it stands still between two calls, the calls of several
programs can be interleaved.

Main definitions:

* `Program` — a finished request, or a call and what follows its reply;
* `Program.run` — a program run without interference;
* `Program.step` — the next call of a program;
* `Program.expect`, `Program.check`, `Program.each` — what programs are written with.

Main results:

* `Program.run_bind` — a sequence of programs runs one after the other;
* `Program.run_eq_step` — a run is the first step and the run of what is left.
-/

import Objectives.Store.Call

set_option relaxedAutoImplicit false
set_option autoImplicit false

namespace Objectives

/-- Calls one after the other, each chosen by the replies before it. -/
inductive Program (α : Type)
  | done (answer : α)
  | fail (reason : Failure)
  | call (c : Call) (next : c.Reply → Program α)

namespace Program

variable {α β σ : Type}

/-! ### Writing programs -/

/-- Goes on with the answer of a program. -/
def bind : Program α → (α → Program β) → Program β
  | done a, f => f a
  | fail e, _ => fail e
  | call c next, f => call c fun reply => (next reply).bind f

instance : Monad Program where
  pure := done
  bind := bind

/-- The reply to a call. -/
def ask (c : Call) : Program c.Reply := call c done

/-- The value that should be there. -/
def expect (reason : Failure) : Option α → Program α
  | some a => done a
  | none => fail reason

/-- Goes on if a result is no failure. -/
def lift : Except Failure α → Program α
  | .ok a => done a
  | .error e => fail e

/-- Goes on if a value is not refused. -/
def check : Except Violation α → Program α
  | .ok a => done a
  | .error v => fail (.invalid v)

/-- Runs a program for each element of a list, in order. -/
def each (f : α → Program β) : List α → Program (List β)
  | [] => done []
  | a :: rest => (f a).bind fun b => (each f rest).bind fun bs => done (b :: bs)

/-! ### Running programs -/

/-- Runs a program over a store, without interference. -/
def run (carry : Carries σ) : Program α → σ → Except Failure α × σ
  | done a, s => (.ok a, s)
  | fail e, s => (.error e, s)
  | call c next, s =>
    match carry c s with
    | (.ok reply, s') => (next reply).run carry s'
    | (.error e, s') => (.error e, s')

/-- The next call of a program, if it is not finished; what is left and the state after it. -/
def step (carry : Carries σ) : Program α → σ → Program α × σ
  | done a, s => (done a, s)
  | fail e, s => (fail e, s)
  | call c next, s =>
    match carry c s with
    | (.ok reply, s') => (next reply, s')
    | (.error e, s') => (fail e, s')

@[simp] theorem pure_eq (a : α) : (pure a : Program α) = done a := rfl

@[simp] theorem bind_eq (p : Program α) (f : α → Program β) : p >>= f = p.bind f := rfl

@[simp] theorem run_done (carry : Carries σ) (a : α) (s : σ) :
    (done a).run carry s = (.ok a, s) := rfl

@[simp] theorem run_fail (carry : Carries σ) (e : Failure) (s : σ) :
    (fail e : Program α).run carry s = (.error e, s) := rfl

/-- A sequence of programs runs one after the other. -/
theorem run_bind (carry : Carries σ) (p : Program α) (f : α → Program β) (s : σ) :
    (p.bind f).run carry s =
      match p.run carry s with
      | (.ok a, s') => (f a).run carry s'
      | (.error e, s') => (.error e, s') := by
  induction p generalizing s with
  | done a => rfl
  | fail e => rfl
  | call c next ih =>
    simp only [bind, run]
    cases carry c s with
    | mk answer s' =>
      cases answer with
      | ok reply => exact ih reply s'
      | error e => rfl

/-- A run is the first step and the run of what is left. -/
theorem run_eq_step (carry : Carries σ) (p : Program α) (s : σ) :
    p.run carry s = (p.step carry s).1.run carry (p.step carry s).2 := by
  cases p with
  | done a => rfl
  | fail e => rfl
  | call c next =>
    simp only [run, step]
    cases carry c s with
    | mk answer s' => cases answer <;> rfl

end Program

end Objectives
