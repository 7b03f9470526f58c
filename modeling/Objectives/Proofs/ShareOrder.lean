/- # The key of a share

A share stands in the list of its team by a key of its own.  That key is the one that the goal has when
the share is given, and it is never changed: a goal that is moved, or gets another owner, leaves the
keys of its shares behind.

Main definitions:

* `System.History` — the states that a system has been in, the latest first;
* `Memory.Rekeyed`, `System.RekeyedIn` — a goal has got another key, with another owner or by a move;
* `System.Held` — some states in a row in which a share has one key.

Main results:

* `System.share_order_of_history` — **a share keeps the key that the goal had when the share was
  given**, and the two differ only if the goal has got another key since then.
-/

import Objectives.Proofs.Edits
import Objectives.Proofs.Handover

set_option relaxedAutoImplicit false
set_option autoImplicit false

namespace Objectives

namespace Memory

variable {m m' : Memory} {id : GoalId} {team : TeamId} {g : Goal} {row : Share}

/-- The goal has got another key, and with it another owner, or in a move. -/
def Rekeyed (m m' : Memory) (id : GoalId) : Prop :=
  ∃ g g', m.goals.get? id = some g ∧ m'.goals.get? id = some g' ∧ g'.sortOrder ≠ g.sortOrder ∧
    (g'.team ≠ g.team ∨ ∃ i asTeam direction,
      m' = (carry (.move (.goal i asTeam) direction) m).2)

/-- A call leaves the key of a goal as it is, or gives it another one. -/
theorem sortOrder_or_rekeyed_carry {c : Call} {g' : Goal} (hget : m.goals.get? id = some g)
    (hgiven : id ≤ m.lastId) (hget' : (carry c m).2.goals.get? id = some g') :
    g'.sortOrder = g.sortOrder ∨ m.Rekeyed (carry c m).2 id := by
  obtain ⟨old, hold, hfollows⟩ := follows_carry hgiven hget'
  rw [hget, Option.some_inj] at hold
  subst hold
  by_cases hsame : g'.sortOrder = g.sortOrder
  · exact .inl hsame
  · refine .inr ⟨g, g', hget, hget', hsame, ?_⟩
    rcases hfollows.sortOrder_eq with h | howner | hmoves
    · exact absurd h hsame
    · exact .inl howner
    · cases c with
      | move item direction =>
        cases item with
        | goal i asTeam => exact .inr ⟨i, asTeam, direction, rfl⟩
        | keyResult i => cases hmoves
        | period i => cases hmoves
      | _ => cases hmoves

/-- A goal is listed for a team with a share in it by the key of the share. -/
theorem mem_goalsOf_of_share (h : m.Ledger) (hget : m.goals.get? id = some g)
    (hrow : m.shares.get? (id, team) = some row) :
    ⟨team, g, row.weight, row.sortOrder⟩ ∈ m.goalsOf team g.period := by
  have hid : g.id = id := h.goalKeyed id g hget
  rw [goalsOf, mem_sortBy, List.mem_filterMap]
  refine ⟨g, List.mem_filter.2 ⟨Table.mem_values_iff.2 ⟨id, hget⟩, beq_self_eq_true _⟩, ?_⟩
  rw [listed, hid, hrow]

end Memory

namespace System

variable {s s' : System} {past held : List System} {id : GoalId} {team : TeamId} {order : Int}
  {row : Share}

/-! ### Histories -/

/-- The states that a system has been in since the store had no records, the latest first. -/
inductive History : List System → Prop
  | start : History [⟨Memory.empty, []⟩]
  | next {s s' : System} {past : List System} (h : History (s :: past)) (step : Step s s') :
      History (s' :: s :: past)

namespace History

theorem steps (h : History (s :: past)) : Relation.ReflTransGen Step ⟨Memory.empty, []⟩ s := by
  generalize hstates : s :: past = states at h
  induction h generalizing s past with
  | start =>
    cases hstates
    exact .refl
  | next h step ih =>
    cases hstates
    exact (ih rfl).tail step

theorem reachable (h : History (s :: past)) : s.store.Reachable := ⟨s.running, h.steps⟩

/-- Every state that can come about has a history. -/
theorem exists_of_steps (h : Relation.ReflTransGen Step ⟨Memory.empty, []⟩ s) :
    ∃ past, History (s :: past) := by
  induction h with
  | refl => exact ⟨[], .start⟩
  | tail _ step ih =>
    obtain ⟨past, hpast⟩ := ih
    exact ⟨_, hpast.next step⟩

end History

/-! ### One step -/

/-- After a step a share has the key that it had, or it is new and has the key of its goal. -/
theorem share_of_step (h : Step s s') (hrow : s'.store.shares.get? (id, team) = some row) :
    (∃ old, s.store.shares.get? (id, team) = some old ∧ row.sortOrder = old.sortOrder) ∨
      (s.store.shares.get? (id, team) = none ∧
        ∃ g, s'.store.goals.get? id = some g ∧ row.sortOrder = g.sortOrder) := by
  rcases h.store_cases with ⟨_, _, _, hstore⟩ | ⟨_, _, hstore⟩ | hstore | ⟨c, hstore⟩
  · rw [hstore] at hrow
    exact .inl ⟨row, hrow, rfl⟩
  · rw [hstore] at hrow
    exact .inl ⟨row, hrow, rfl⟩
  · rw [hstore] at hrow
    exact .inl ⟨row, hrow, rfl⟩
  · rw [hstore] at hrow ⊢
    exact Memory.share_carry hrow

/-- A step leaves the key of a goal as it is, or gives it another one. -/
theorem sortOrder_or_rekeyed {g g' : Goal} (h : Step s s') (hledger : s.store.Ledger)
    (hget : s.store.goals.get? id = some g) (hget' : s'.store.goals.get? id = some g') :
    g'.sortOrder = g.sortOrder ∨ s.store.Rekeyed s'.store id := by
  have same (hgoals : s'.store.goals = s.store.goals) : g'.sortOrder = g.sortOrder := by
    rw [hgoals, hget, Option.some_inj] at hget'
    rw [hget']
  rcases h.store_cases with ⟨_, _, _, hstore⟩ | ⟨_, _, hstore⟩ | hstore | ⟨c, hstore⟩
  · exact .inl (same (by rw [hstore]; rfl))
  · exact .inl (same (by rw [hstore]; rfl))
  · exact .inl (same (by rw [hstore]))
  · rw [hstore] at hget' ⊢
    exact Memory.sortOrder_or_rekeyed_carry hget (hledger.given id g hget) hget'

/-! ### Since a share was given -/

/-- Between two of the states, one right after the other, the goal has got another key. -/
def RekeyedIn (states : List System) (id : GoalId) : Prop :=
  ∃ later sooner, [later, sooner] <:+: states ∧ sooner.store.Rekeyed later.store id

theorem RekeyedIn.of_infix {states : List System} (h : RekeyedIn held id) (hin : held <:+: states) :
    RekeyedIn states id := by
  obtain ⟨later, sooner, hpair, hrekeyed⟩ := h
  exact ⟨later, sooner, hpair.trans hin, hrekeyed⟩

/-- Some states in a row, the latest first: in all of them the share has one key, which is the key of
the goal in the first.  In the latest the goal has that key, too, or it has got another one at some
point in between. -/
structure Held (held : List System) (id : GoalId) (team : TeamId) (order : Int) : Prop where
  kept : ∀ s ∈ held, (s.store.shares.get? (id, team)).map Share.sortOrder = some order
  given : ∃ s g, held.getLast? = some s ∧ s.store.goals.get? id = some g ∧ g.sortOrder = order
  latest : ∃ s g, held.head? = some s ∧ s.store.goals.get? id = some g ∧
    (g.sortOrder = order ∨ RekeyedIn held id)

namespace Held

/-- In the state in which a share is given. -/
theorem single {g : Goal} (hrow : s.store.shares.get? (id, team) = some row)
    (hget : s.store.goals.get? id = some g) (horder : row.sortOrder = g.sortOrder) :
    Held [s] id team row.sortOrder where
  kept x hx := by
    rw [List.mem_singleton.1 hx, hrow]
    rfl
  given := ⟨s, g, rfl, hget, horder.symm⟩
  latest := ⟨s, g, rfl, hget, .inl horder.symm⟩

/-- One state more in which the share is there. -/
theorem cons {g' : Goal} (h : Held (s :: past) id team row.sortOrder) (step : Step s s')
    (hledger : s.store.Ledger) (hrow : s'.store.shares.get? (id, team) = some row)
    (hget' : s'.store.goals.get? id = some g') : Held (s' :: s :: past) id team row.sortOrder where
  kept x hx := by
    rcases List.mem_cons.1 hx with rfl | hx
    · rw [hrow]
      rfl
    · exact h.kept x hx
  given := h.given
  latest := by
    obtain ⟨_, g, hhead, hget, hsince⟩ := h.latest
    cases hhead
    refine ⟨s', g', rfl, hget', ?_⟩
    rcases sortOrder_or_rekeyed step hledger hget hget' with hsame | hrekeyed
    · rcases hsince with hkey | hbefore
      · exact .inl (hsame.trans hkey)
      · exact .inr (hbefore.of_infix (List.suffix_cons ..).isInfix)
    · exact .inr ⟨s', s, ⟨[], past, rfl⟩, hrekeyed⟩

end Held

/-- Since a share that there is was given, it has had one key. -/
theorem exists_held {states : List System} (h : History states) :
    ∀ s past, states = s :: past → ∀ row, s.store.shares.get? (id, team) = some row →
      ∃ held earlier before, states = held ++ earlier :: before ∧ held.head? = some s ∧
        earlier.store.shares.get? (id, team) = none ∧ Held held id team row.sortOrder := by
  induction h with
  | start =>
    intro s past hstates row hrow
    cases hstates
    cases hrow
  | @next s s' past h step ih =>
    intro t rest hstates row hrow
    cases hstates
    obtain ⟨g', hget', -⟩ := (h.next step).reachable.sound.ledger.shared id team
      (Table.contains_of_get? hrow)
    rcases share_of_step step hrow with ⟨old, hold, hkey⟩ | ⟨hnone, g, hget, hkey⟩
    · obtain ⟨held, earlier, before, hsplit, hhead, hgone, hheld⟩ := ih s past rfl old hold
      obtain ⟨since, rfl⟩ := List.head?_eq_some_iff.1 hhead
      rw [← hkey] at hheld
      refine ⟨s' :: s :: since, earlier, before, congrArg (s' :: ·) hsplit, rfl, hgone, ?_⟩
      exact hheld.cons step h.reachable.sound.ledger hrow hget'
    · exact ⟨[s'], s, past, rfl, rfl, hnone, .single hrow hget hkey⟩

/-- **A share keeps the key that the goal had when the share was given**: whatever has happened, the
goal is listed by that key for the team, and it has the same key for its owner unless it was moved or got
another owner since then. -/
theorem share_order_of_history (h : History (s :: past))
    (hrow : s.store.shares.get? (id, team) = some row) :
    ∃ held earlier before g, s :: past = held ++ earlier :: before ∧
      earlier.store.shares.get? (id, team) = none ∧ Held held id team row.sortOrder ∧
      s.store.goals.get? id = some g ∧
      ⟨team, g, row.weight, row.sortOrder⟩ ∈ s.store.goalsOf team g.period ∧
      (g.sortOrder = row.sortOrder ∨ RekeyedIn held id) := by
  obtain ⟨held, earlier, before, hsplit, hhead, hgone, hheld⟩ := exists_held h s past rfl row hrow
  obtain ⟨now, g, hnow, hget, hsince⟩ := hheld.latest
  rw [hhead, Option.some_inj] at hnow
  subst hnow
  exact ⟨held, earlier, before, g, hsplit, hgone, hheld, hget,
    Memory.mem_goalsOf_of_share h.reachable.sound.ledger hget hrow, hsince⟩

/-- A store in which two teams carry two goals, after the owner has moved the first goal down. -/
def movedDown : Memory :=
  let draft : GoalDraft := ⟨"Keep", "", .p1, ⟨12, by decide⟩, .delivery, .stability, ""⟩
  let added := ((Command.createGoal 1 3 draft).program.run Memory.carry Memory.oneShare).2
  let shared := ((Command.shareGoal 5 [⟨1, ⟨12, by decide⟩⟩, ⟨2, ⟨18, by decide⟩⟩]).program.run
    Memory.carry added).2
  ((Command.move (.goal 4 none) .down).program.run Memory.carry shared).2

theorem reachable_movedDown : movedDown.Reachable :=
  ((Memory.reachable_oneShare.run _).run _).run _

/-- The share has the key that the goal had before the move, and the other team's list stands in the old
order. -/
theorem share_keys_left_behind :
    movedDown.Reachable ∧
      ∃ row g, movedDown.shares.get? (4, 2) = some row ∧ movedDown.goals.get? 4 = some g ∧
        row.sortOrder = 1 ∧ g.sortOrder = 2 ∧
        (movedDown.goalsOf 1 3).map (fun entry => entry.goal.id) = [5, 4] ∧
        (movedDown.goalsOf 2 3).map (fun entry => entry.goal.id) = [4, 5] :=
  ⟨reachable_movedDown, _, _, by rfl, by rfl, by rfl, by rfl, by decide +kernel, by decide +kernel⟩

/-- In the history of that store there is the move. -/
theorem share_order_of_history_movedDown :
    ∃ s past row, s.store = movedDown ∧ History (s :: past) ∧
      s.store.shares.get? (4, 2) = some row ∧ row.sortOrder = 1 ∧ RekeyedIn (s :: past) 4 := by
  obtain ⟨running, hsteps⟩ := reachable_movedDown
  obtain ⟨past, hhistory⟩ := History.exists_of_steps hsteps
  have hrow : movedDown.shares.get? (4, 2) = some ⟨4, 2, ⟨40, by decide⟩, 1⟩ := by rfl
  obtain ⟨held, earlier, before, g, hsplit, -, -, hget, -, hsince⟩ :=
    share_order_of_history hhistory hrow
  refine ⟨_, past, _, rfl, hhistory, hrow, rfl, ?_⟩
  rcases hsince with hsame | hmoved
  · -- the goal has been moved
    have horder : (movedDown.goals.get? 4).map Goal.sortOrder = some 2 := by rfl
    rw [hget, Option.map_some, Option.some_inj, hsame] at horder
    cases horder
  · rw [hsplit]
    exact hmoved.of_infix (List.prefix_append held _).isInfix

end System

end Objectives
