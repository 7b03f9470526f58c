/- # Two programs on one store

Two programs run on one store, call by call in any order, and each call is carried out as a whole.
What the one can rely on is what holds between its calls whatever the other does, which may depend on
what the other has done and when.  It is said by an outline: one assertion for each place that the
program can have come to, kept by all calls of the other.

Main definitions:

* `Scene` — a store, the number of calls that one program has made, and marks that the calls of the
  other have left, each with the number at that time;
* `Scene.latest` — the value of the last mark;
* `Duo`, `Duo.play` — two programs on one store, and what becomes of them in an order of turns;
* `Program.Outline` — assertions for the places of a program;
* `Program.Marking` — the marks that a program leaves until it has finished.

Main results:

* `Duo.outline_play` — **what an outline says of the end holds when the program has finished, in
  whatever order the turns are taken**;
* `Duo.marks_play` — a program that has finished has left its marks.
-/

import Objectives.Memory.Calls
import Objectives.Store.Program

set_option relaxedAutoImplicit false
set_option autoImplicit false

namespace Objectives

/-! ### What has happened -/

/-- A store that two programs share, the number of calls that the first has made, and the marks that the
calls of the second have left, each with the number of calls that the first had made by then. -/
structure Scene (γ : Type) where
  store : Memory
  calls : Nat
  marks : List (Nat × γ)
  /-- No mark has been left later than now. -/
  past : ∀ mark ∈ marks, mark.1 ≤ calls

namespace Scene

variable {γ : Type}

/-- Nothing has happened. -/
def start (m : Memory) : Scene γ := ⟨m, 0, [], fun _ h => by cases h⟩

/-- The first program has made a call. -/
def own (s : Scene γ) (c : Call) : Scene γ :=
  ⟨(Memory.carry c s.store).2, s.calls + 1, s.marks, fun mark h => Nat.le_succ_of_le (s.past mark h)⟩

/-- The second program has made a call, and left a mark if there is one on it. -/
def other (mark : Memory → Call → Option γ) (s : Scene γ) (c : Call) : Scene γ where
  store := (Memory.carry c s.store).2
  calls := s.calls
  marks := s.marks ++ ((mark s.store c).map fun x => (s.calls, x)).toList
  past := by
    intro left h
    rcases List.mem_append.1 h with h | h
    · exact s.past left h
    · obtain ⟨x, -, rfl⟩ := Option.map_eq_some_iff.1 (Option.mem_toList.1 h)
      exact Nat.le_refl _

/-- The value of the last mark among those that were left at certain times, if any was. -/
def latest (s : Scene γ) (initial : γ) (times : Nat → Bool) : γ :=
  (s.marks.filter fun mark => times mark.1).foldl (fun _ mark => mark.2) initial

section Latest

variable {mark : Memory → Call → Option γ} {s : Scene γ} {c : Call} {initial : γ}
  {times times' : Nat → Bool}

@[simp] theorem calls_own : (s.own c).calls = s.calls + 1 := rfl

@[simp] theorem calls_other : (s.other mark c).calls = s.calls := rfl

theorem marks_other :
    (s.other mark c).marks = s.marks ++ ((mark s.store c).map fun x => (s.calls, x)).toList := rfl

@[simp] theorem latest_start (m : Memory) : (start m).latest initial times = initial := rfl

/-- The own calls leave no marks. -/
@[simp] theorem latest_own : (s.own c).latest initial times = s.latest initial times := rfl

/-- A mark that is left now is the last. -/
theorem latest_other (h : times s.calls = true) :
    (s.other mark c).latest initial times = (mark s.store c).getD (s.latest initial times) := by
  simp only [latest, marks_other]
  cases mark s.store c with
  | none => simp
  | some x => simp [h]

/-- A mark that is left at no such time does not count. -/
theorem latest_other_of_not (h : times s.calls = false) :
    (s.other mark c).latest initial times = s.latest initial times := by
  simp only [latest, marks_other]
  cases mark s.store c with
  | none => simp
  | some x => simp [h]

/-- Only the times at which marks have been left make a difference. -/
theorem latest_congr (h : ∀ mark ∈ s.marks, times mark.1 = times' mark.1) :
    s.latest initial times = s.latest initial times' := by
  rw [latest, latest, List.filter_congr h]

/-- There is no mark of the time to come. -/
theorem latest_of_not (h : ∀ n ≤ s.calls, times n = false) : s.latest initial times = initial := by
  have hnil : (s.marks.filter fun mark => times mark.1) = [] := by
    refine List.filter_eq_nil_iff.2 fun mark hmark => ?_
    rw [h mark.1 (s.past mark hmark)]
    exact Bool.false_ne_true
  rw [latest, hnil]
  rfl

/-- A single mark is the last, if it counts. -/
theorem latest_of_single {n : Nat} {x : γ} (h : s.marks = [(n, x)]) :
    s.latest initial times = if times n then x else initial := by
  rw [latest, h]
  cases htimes : times n <;> simp [htimes]

end Latest

end Scene

/-! ### Turns -/

/-- The program whose turn it is. -/
inductive Side
  | left
  | right
  deriving DecidableEq

/-- Two programs on one store. -/
structure Duo (α β γ : Type) where
  scene : Scene γ
  left : Program α
  right : Program β

namespace Duo

variable {α β γ : Type}

/-- Two programs that have not begun. -/
def start (m : Memory) (left : Program α) (right : Program β) : Duo α β γ := ⟨.start m, left, right⟩

/-- One of the programs makes its next call; nothing happens if it has finished. -/
def next (mark : Memory → Call → Option γ) (d : Duo α β γ) : Side → Duo α β γ
  | .left =>
    match d.left with
    | .call c _ => { d with
        scene := d.scene.own c
        left := (d.left.step Memory.carry d.scene.store).1 }
    | _ => d
  | .right =>
    match d.right with
    | .call c _ => { d with
        scene := d.scene.other mark c
        right := (d.right.step Memory.carry d.scene.store).1 }
    | _ => d

/-- The turns are taken in some order. -/
def play (mark : Memory → Call → Option γ) (d : Duo α β γ) (turns : List Side) : Duo α β γ :=
  turns.foldl (next mark) d

variable {mark : Memory → Call → Option γ} {d : Duo α β γ}

/-- What every turn keeps is kept. -/
theorem play_keeps {P : Duo α β γ → Prop} (h : ∀ d side, P d → P (d.next mark side)) (hd : P d)
    (turns : List Side) : P (d.play mark turns) := by
  induction turns generalizing d with
  | nil => exact hd
  | cons side rest ih => exact ih (h d side hd)

end Duo

/-! ### Outlines -/

/-- What holds is not undone by any call of the second program. -/
def Scene.Stable {γ : Type} (mark : Memory → Call → Option γ) (P : Scene γ → Prop) : Prop :=
  ∀ s c, P s → P (s.other mark c)

namespace Program

variable {α β γ : Type} {mark : Memory → Call → Option γ} {fails P P' : Scene γ → Prop}

/-- Assertions for the places that a program can come to.  What holds before a call is not undone by
the other program, and the call leads from it to what holds after the reply, or to what holds when the
program fails. -/
inductive Outline (mark : Memory → Call → Option γ) (fails : Scene γ → Prop)
    (answers : α → Scene γ → Prop) : Program α → (Scene γ → Prop) → Prop
  | done {a : α} {P : Scene γ → Prop} (holds : ∀ s, P s → answers a s) :
      Outline mark fails answers (done a) P
  | fail {e : Failure} {P : Scene γ → Prop} (holds : ∀ s, P s → fails s) :
      Outline mark fails answers (fail e) P
  | call {c : Call} {next : c.Reply → Program α} {P waits : Scene γ → Prop}
      (replied : c.Reply → Scene γ → Prop) (holds : ∀ s, P s → waits s)
      (stable : Scene.Stable mark waits)
      (reply : ∀ s r, waits s → (Memory.carry c s.store).1 = .ok r → replied r (s.own c))
      (refusal : ∀ s e, waits s → (Memory.carry c s.store).1 = .error e → fails (s.own c))
      (rest : ∀ r, Outline mark fails answers (next r) (replied r)) :
      Outline mark fails answers (call c next) P

namespace Outline

variable {answers : α → Scene γ → Prop}

/-- What holds at the start may be more than is needed. -/
theorem mono {p : Program α} (h : p.Outline mark fails answers P) (hP : ∀ s, P' s → P s) :
    p.Outline mark fails answers P' := by
  cases h with
  | done holds => exact .done fun s hs => holds s (hP s hs)
  | fail holds => exact .fail fun s hs => holds s (hP s hs)
  | call replied holds stable reply refusal rest =>
    exact .call replied (fun s hs => holds s (hP s hs)) stable reply refusal rest

/-- In a sequence the second program goes on from what holds of the answer of the first. -/
theorem bind {p : Program α} {f : α → Program β} {answers' : β → Scene γ → Prop}
    (h : p.Outline mark fails answers P) (hf : ∀ a, (f a).Outline mark fails answers' (answers a)) :
    (p.bind f).Outline mark fails answers' P := by
  induction h with
  | @done a P holds => exact (hf a).mono holds
  | fail holds => exact .fail holds
  | call replied holds stable reply refusal _ ih =>
    exact .call replied holds stable reply refusal ih

/-- A single call. -/
theorem ask {c : Call} {answers : c.Reply → Scene γ → Prop} (stable : Scene.Stable mark P)
    (reply : ∀ s r, P s → (Memory.carry c s.store).1 = .ok r → answers r (s.own c))
    (refusal : ∀ s e, P s → (Memory.carry c s.store).1 = .error e → fails (s.own c)) :
    (Program.ask c).Outline mark fails answers P :=
  .call answers (fun _ => id) stable reply refusal fun _ => .done fun _ => id

theorem check (result : Except Violation α) (holds : ∀ s, P s → fails s) :
    (Program.check result).Outline mark fails (fun _ => P) P := by
  cases result with
  | ok a => exact .done fun _ => id
  | error v => exact .fail holds

theorem expect (reason : Failure) (value : Option α) (holds : ∀ s, P s → fails s) :
    (Program.expect reason value).Outline mark fails (fun _ => P) P := by
  cases value with
  | none => exact .fail holds
  | some a => exact .done fun _ => id

end Outline

/-- What an outline says of the place that a program has come to. -/
def Fits (mark : Memory → Call → Option γ) (fails : Scene γ → Prop) (answers : α → Scene γ → Prop)
    (s : Scene γ) : Program α → Prop
  | done a => answers a s
  | fail _ => fails s
  | p => ∃ P, p.Outline mark fails answers P ∧ P s

theorem Outline.fits {answers : α → Scene γ → Prop} {p : Program α} {s : Scene γ}
    (h : p.Outline mark fails answers P) (hs : P s) : p.Fits mark fails answers s := by
  cases p with
  | done a =>
    cases h with
    | done holds => exact holds s hs
  | fail e =>
    cases h with
    | fail holds => exact holds s hs
  | call c next => exact ⟨P, h, hs⟩

end Program

namespace Duo

variable {α β γ : Type} {mark : Memory → Call → Option γ} {fails : Scene γ → Prop}
  {answers : α → Scene γ → Prop} {d : Duo α β γ}

/-- Whoever's turn it is, the first program comes to places that its outline fits. -/
theorem fits_next (hfails : Scene.Stable mark fails) (hanswers : ∀ a, Scene.Stable mark (answers a))
    (d : Duo α β γ) (side : Side) (h : d.left.Fits mark fails answers d.scene) :
    (d.next mark side).left.Fits mark fails answers (d.next mark side).scene := by
  obtain ⟨s, left, right⟩ := d
  cases side with
  | left =>
    cases left with
    | done a => exact h
    | fail e => exact h
    | call c next =>
      obtain ⟨P, houtline, hs⟩ := h
      cases houtline with
      | call replied holds stable reply refusal rest =>
        have hreply := fun r => reply s r (holds s hs)
        have hrefusal := fun e => refusal s e (holds s hs)
        simp only [Duo.next, Program.step]
        cases hcarry : Memory.carry c s.store with
        | mk answer m' =>
          rw [hcarry] at hreply hrefusal
          cases answer with
          | ok r => exact (rest r).fits (hreply r rfl)
          | error e => exact hrefusal e rfl
  | right =>
    cases right with
    | done b => exact h
    | fail e => exact h
    | call c next =>
      cases left with
      | done a => exact hanswers a s c h
      | fail e => exact hfails s c h
      | call c' next' =>
        obtain ⟨P, houtline, hs⟩ := h
        cases houtline with
        | call replied holds stable reply refusal rest =>
          exact Program.Outline.fits (.call replied (fun _ => id) stable reply refusal rest)
            (stable s c (holds s hs))

/-- **What an outline says of the end holds when the program has finished, in whatever order the turns
are taken.** -/
theorem outline_play (hfails : Scene.Stable mark fails)
    (hanswers : ∀ a, Scene.Stable mark (answers a)) {P : Scene γ → Prop}
    (h : d.left.Outline mark fails answers P) (hs : P d.scene) (turns : List Side) :
    (∀ e, (d.play mark turns).left = .fail e → fails (d.play mark turns).scene) ∧
      ∀ a, (d.play mark turns).left = .done a → answers a (d.play mark turns).scene := by
  have hfits : (d.play mark turns).left.Fits mark fails answers (d.play mark turns).scene :=
    play_keeps (P := fun d => d.left.Fits mark fails answers d.scene) (fits_next hfails hanswers)
      (h.fits hs) turns
  refine ⟨fun e he => ?_, fun a ha => ?_⟩
  · rwa [he] at hfits
  · rwa [ha] at hfits

end Duo

/-! ### The marks of a program -/

namespace Program

variable {α β γ : Type} {mark : Memory → Call → Option γ}

/-- A program that gives an answer has left certain marks by then, whatever has happened in between. -/
inductive Marking (mark : Memory → Call → Option γ) : List γ → Program β → Prop
  | done {b : β} : Marking mark [] (done b)
  | fail {e : Failure} {marks : List γ} : Marking mark marks (fail e)
  | silent {c : Call} {next : c.Reply → Program β} {marks : List γ} (h : ∀ m, mark m c = none)
      (rest : ∀ r, Marking mark marks (next r)) : Marking mark marks (call c next)
  | marked {c : Call} {next : c.Reply → Program β} {x : γ} {marks : List γ}
      (h : ∀ m, mark m c = some x) (rest : ∀ r, Marking mark marks (next r)) :
      Marking mark (x :: marks) (call c next)

namespace Marking

/-- A sequence leaves the marks of both programs. -/
theorem bind {p : Program α} {f : α → Program β} {first second : List γ} (h : Marking mark first p)
    (hf : ∀ a, Marking mark second (f a)) : Marking mark (first ++ second) (p.bind f) := by
  induction h with
  | @done a => exact hf a
  | fail => exact .fail
  | silent h _ ih => exact .silent h ih
  | marked h _ ih => exact .marked h ih

theorem ask_silent {c : Call} (h : ∀ m, mark m c = none) : Marking mark [] (Program.ask c) :=
  .silent h fun _ => .done

theorem ask_marked {c : Call} {x : γ} (h : ∀ m, mark m c = some x) :
    Marking mark [x] (Program.ask c) :=
  .marked h fun _ => .done

theorem expect (reason : Failure) (value : Option β) :
    Marking mark [] (Program.expect reason value) := by
  cases value with
  | none => exact .fail
  | some b => exact .done

end Marking

end Program

namespace Duo

variable {α β γ : Type} {mark : Memory → Call → Option γ} {d : Duo α β γ} {all : List γ}

/-- The marks that have been left, and those that the second program has yet to leave. -/
def Leaving (mark : Memory → Call → Option γ) (all : List γ) (d : Duo α β γ) : Prop :=
  ∃ later, d.scene.marks.map Prod.snd ++ later = all ∧ d.right.Marking mark later

theorem leaving_next (d : Duo α β γ) (side : Side) (h : d.Leaving mark all) :
    (d.next mark side).Leaving mark all := by
  obtain ⟨s, left, right⟩ := d
  obtain ⟨later, hall, hlater⟩ := h
  cases side with
  | left => cases left <;> exact ⟨later, hall, hlater⟩
  | right =>
    -- what is left of the second program leaves the later marks, also if the call fails
    have hnext {c : Call} {next : c.Reply → Program β} {later : List γ}
        (rest : ∀ r, (next r).Marking mark later) :
        ((Program.call c next).step Memory.carry s.store).1.Marking mark later := by
      rw [Program.step]
      cases Memory.carry c s.store with
      | mk answer m' =>
        cases answer with
        | ok r => exact rest r
        | error e => exact .fail
    cases hlater with
    | done => exact ⟨[], hall, .done⟩
    | fail => exact ⟨later, hall, .fail⟩
    | silent h rest =>
      refine ⟨later, ?_, hnext rest⟩
      simpa [Duo.next, Scene.marks_other, h] using hall
    | @marked c next x later h rest =>
      refine ⟨later, ?_, hnext rest⟩
      simpa [Duo.next, Scene.marks_other, h] using hall

/-- **A program that has finished has left its marks.** -/
theorem marks_play {m : Memory} {left : Program α} {right : Program β}
    (h : right.Marking mark all) (turns : List Side) {b : β}
    (hdone : ((start m left right).play mark turns).right = .done b) :
    ((start m left right).play mark turns).scene.marks.map Prod.snd = all := by
  have hstart : (start m left right).Leaving mark all := ⟨all, rfl, h⟩
  obtain ⟨later, hall, hlater⟩ := play_keeps leaving_next hstart turns
  rw [hdone] at hlater
  cases hlater
  rwa [List.append_nil] at hall

end Duo

end Objectives
