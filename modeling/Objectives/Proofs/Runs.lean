/- # Runs of commands

Commands that are carried out one after the other, each without interference; in between teams are
added and moved, and periods are created.  What an event does to the goals and to all that is on them,
a command does by its calls.

Main definitions:

* `Event`, `Memory.happen`, `Memory.play` — what can happen to a store, once and in a run;
* `Memory.Throughout` — what holds before, between and after the events of a run;
* `Memory.SameWork` — a store that differs at most in its teams, its periods and its counter.

Main results:

* `Memory.happen_keeps`, `Memory.play_keeps` — what every call keeps is kept by an event, and by a run;
* `Memory.happen_cases` — an event leaves all goals, shares, statuses, key results and comments as they
  are, or it is a command that is let in and makes its calls;
* `Memory.Throughout.of_step` — **what holds at the start of a run and is kept by every event, as long
  as something else holds, holds throughout the run**.
-/

import Objectives.Proofs.Written

set_option relaxedAutoImplicit false
set_option autoImplicit false

namespace Objectives

/-- What can happen to a store, with nothing else going on at the same time. -/
inductive Event
  | command (c : Command)
  | addTeam (name : String) (type : TeamType) (parent : Option TeamId)
  | setTeamParent (team : TeamId) (parent : Option TeamId)
  | createPeriod (name : String) (startDate endDate : Date)

namespace Memory

variable {m m' : Memory} {events : List Event} {p q : Memory → Prop}

/-! ### Events -/

/-- The store after an event, whether that has succeeded or not. -/
def happen (m : Memory) : Event → Memory
  | .command c => (c.program.run carry m).2
  | .addTeam name type parent => (m.addTeam name type parent).2
  | .setTeamParent team parent => m.setTeamParent team parent
  | .createPeriod name startDate endDate => (m.createPeriod name startDate endDate).2

/-- The store after some events, one after the other. -/
def play (m : Memory) (events : List Event) : Memory := events.foldl happen m

theorem Reachable.happen (h : m.Reachable) (e : Event) : (m.happen e).Reachable := by
  cases e with
  | command c => exact h.run c
  | addTeam name type parent => exact h.addTeam name type parent
  | setTeamParent team parent => exact h.setTeamParent team parent
  | createPeriod name startDate endDate => exact h.createPeriod name startDate endDate

/-- What every event keeps is kept by a run. -/
theorem play_keeps {P : Memory → Prop} (h : ∀ m e, P m → P (m.happen e)) (hm : P m)
    (events : List Event) : P (m.play events) := by
  induction events generalizing m with
  | nil => exact hm
  | cons e rest ih => exact ih (h m e hm)

theorem Reachable.play (h : m.Reachable) (events : List Event) : (m.play events).Reachable :=
  play_keeps (fun _ e hm => hm.happen e) h events

/-- What every call keeps is kept by a program. -/
theorem run_keeps {α : Type} {P : Memory → Prop} (carry : ∀ m c, P m → P (Memory.carry c m).2)
    (p : Program α) (hm : P m) : P (p.run Memory.carry m).2 := by
  induction p generalizing m with
  | done a => exact hm
  | fail e => exact hm
  | call c next ih =>
    have hcall := carry m c hm
    rw [Program.run]
    split
    · rename_i reply m' hcarry
      rw [hcarry] at hcall
      exact ih reply hcall
    · rename_i e m' hcarry
      rw [hcarry] at hcall
      exact hcall

/-- What looking after teams and every call keep is kept by an event. -/
theorem happen_keeps {P : Memory → Prop}
    (addTeam : ∀ m name type parent, P m → P (m.addTeam name type parent).2)
    (setTeamParent : ∀ m team parent, P m → P (m.setTeamParent team parent))
    (carry : ∀ m c, P m → P (Memory.carry c m).2) (hm : P m) (e : Event) : P (m.happen e) := by
  cases e with
  | command c => exact run_keeps carry c.program hm
  | addTeam name type parent => exact addTeam m name type parent hm
  | setTeamParent team parent => exact setTeamParent m team parent hm
  | createPeriod name startDate endDate => exact carry m (.createPeriod name startDate endDate) hm

/-! ### What an event does -/

/-- The goals, and all that is on them, are the same. -/
structure SameWork (m m' : Memory) : Prop where
  goals : m'.goals = m.goals
  shares : m'.shares = m.shares
  statuses : m'.statuses = m.statuses
  keyResults : m'.keyResults = m.keyResults
  comments : m'.comments = m.comments

theorem SameWork.of_records (h : m'.records = m.records) : m.SameWork m' := by
  obtain ⟨lastId, rfl⟩ := eq_of_records h
  exact ⟨rfl, rfl, rfl, rfl, rfl⟩

/-- An event leaves the goals and all that is on them as they are, or it is a command that is let in,
finds what it needs and makes its calls. -/
theorem happen_cases (h : m.Reachable) (e : Event) :
    m.SameWork (m.happen e) ∨
      ∃ c, e = .command c ∧ c.Open m ∧ ∃ calls, c.Writes m calls ∧ m.happen e = m.after calls := by
  cases e with
  | command c =>
    rcases Command.same_or_writes h c with hsame | ⟨hopen, hwritten⟩
    · exact .inl (.of_records hsame)
    · exact .inr ⟨c, rfl, hopen, hwritten⟩
  | addTeam name type parent => exact .inl ⟨rfl, rfl, rfl, rfl, rfl⟩
  | setTeamParent team parent => exact .inl ⟨rfl, rfl, rfl, rfl, rfl⟩
  | createPeriod name startDate endDate =>
    obtain ⟨_, _, _, heq⟩ := touched_createPeriod m name startDate endDate
    refine .inl ?_
    rw [happen, heq]
    exact ⟨rfl, rfl, rfl, rfl, rfl⟩

/-! ### Runs -/

/-- The property holds of the store at every point of the run: at its start, between any two events and
at its end. -/
def Throughout (m : Memory) (events : List Event) (p : Memory → Prop) : Prop :=
  ∀ before after, events = before ++ after → p (m.play before)

namespace Throughout

theorem start (h : m.Throughout events p) : p m := h [] events rfl

theorem next {e : Event} (h : m.Throughout (e :: events) p) : (m.happen e).Throughout events p :=
  fun before after hsplit => h (e :: before) after (congrArg (e :: ·) hsplit)

theorem nil (h : p m) : m.Throughout [] p := by
  intro before after hsplit
  rw [(List.append_eq_nil_iff.1 hsplit.symm).1]
  exact h

theorem cons {e : Event} (h : p m) (hrest : (m.happen e).Throughout events p) :
    m.Throughout (e :: events) p := by
  intro before after hsplit
  cases before with
  | nil => exact h
  | cons e' before =>
    obtain ⟨rfl, hevents⟩ := List.cons.inj hsplit
    exact hrest before after hevents

theorem mono (h : m.Throughout events p) (hpq : ∀ m, p m → q m) : m.Throughout events q :=
  fun before after hsplit => hpq _ (h before after hsplit)

/-- **What holds at the start of a run and is kept by every event, as long as something else holds,
holds throughout the run.** -/
theorem of_step (hm : m.Reachable) (h : m.Throughout events p) (start : q m)
    (step : ∀ m e, m.Reachable → p m → p (m.happen e) → q m → q (m.happen e)) :
    m.Throughout events q := by
  induction events generalizing m with
  | nil => exact nil start
  | cons e rest ih =>
    have hnext := step m e hm h.start h.next.start start
    exact cons start (ih (hm.happen e) h.next hnext)

/-- A run can be cut: what holds throughout a run holds throughout its parts. -/
theorem of_append {first second : List Event} (h : m.Throughout (first ++ second) p) :
    m.Throughout first p ∧ (m.play first).Throughout second p := by
  induction first generalizing m with
  | nil => exact ⟨nil h.start, h⟩
  | cons e rest ih =>
    obtain ⟨hfirst, hsecond⟩ := ih h.next
    exact ⟨cons h.start hfirst, hsecond⟩

end Throughout

end Memory

end Objectives
