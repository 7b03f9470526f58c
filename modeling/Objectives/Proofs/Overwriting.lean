/- # Values written back

Two commands write back what they have read before.  An edit on behalf of a team with a share writes
the whole goal, with the weight of the owner as it was when the goal was read; and the creation of a
first goal sets the status that follows from the one that was read.  What another program has written in
between is lost, and nothing else is.

Main definitions:

* `Memory.Weighed` — what a goal weighs as long as it is there;
* `Call.sets` — the status that a call gives a team in a period.

Main results:

* `Memory.weight_after_update` — **the weight of a goal after an edit beside another program**;
* `Memory.status_after_create` — the status of a team after the creation of a goal beside another
  program;
* `Memory.status_after_create_and_set` — **the status of a team after the creation of a goal beside a
  change of the status**.
-/

import Objectives.Proofs.Edits
import Objectives.Proofs.Handover
import Objectives.Proofs.Interleaving
import Objectives.Proofs.Refusal.Memory

set_option relaxedAutoImplicit false
set_option autoImplicit false

namespace Objectives

/-- The status that a call gives a team in a period, if it sets that. -/
def Call.sets (team : TeamId) (period : PeriodId) : Call → Option Status
  | setStatus t p new => if t = team ∧ p = period then some new else none
  | _ => none

namespace Memory

open Program (Outline)

/-! ### The weight of a goal -/

/-- The goal has been given its identifier; it weighs so much if it is there. -/
structure Weighed (m : Memory) (id : GoalId) (w : Weight) : Prop where
  given : id ≤ m.lastId
  goal : ∀ g, m.goals.get? id = some g → g.id = id ∧ g.weight = w

section Weights

variable {m : Memory} {id : GoalId} {w₀ w : Weight} {n : Nat} {times : Nat → Bool}

/-- A call gives the goal another weight, or leaves it the one that it has. -/
theorem Weighed.carry (h : m.Weighed id w) (c : Call) :
    (carry c m).2.Weighed id ((m.weighs id c).getD w) where
  given := Int.le_trans h.given (touched_carry c m).lastId_le
  goal g' hg' := by
    obtain ⟨g, hg, hfollows⟩ := follows_carry h.given hg'
    obtain ⟨hid, hweight⟩ := h.goal g hg
    exact ⟨hfollows.id_eq.trans hid, by rw [hfollows.weight_eq, hweight]⟩

/-- The goal weighs what the last call of the other program that counts has given it. -/
def WeighedLast (id : GoalId) (w₀ : Weight) (times : Nat → Bool) (s : Scene Weight) : Prop :=
  s.store.Weighed id (s.latest w₀ times)

theorem WeighedLast.other {s : Scene Weight} (h : WeighedLast id w₀ times s)
    (htimes : times s.calls = true) (c : Call) :
    WeighedLast id w₀ times (s.other (fun m c => m.weighs id c) c) := by
  rw [WeighedLast, Scene.latest_other htimes]
  exact Weighed.carry h c

theorem stable_weighedLast :
    Scene.Stable (fun m c => m.weighs id c) (WeighedLast id w₀ fun _ => true) :=
  fun _ c h => h.other rfl c

/-- The places of an edit up to its first write: what has been read is what the goal weighed before any
later call of the other program. -/
structure HasRead (id : GoalId) (w₀ : Weight) (n : Nat) (goal : Goal) (s : Scene Weight) : Prop where
  calls : s.calls = n
  weighed : WeighedLast id w₀ (fun _ => true) s
  id_eq : goal.id = id
  weight_eq : goal.weight = s.latest w₀ fun n => n < 1 || 4 ≤ n

theorem stable_hasRead (goal : Goal) (hn : (n < 1 || 4 ≤ n : Bool) = false) :
    Scene.Stable (fun m c => m.weighs id c) (HasRead id w₀ n goal) := by
  rintro s c ⟨rfl, hweighed, hid, hweight⟩
  exact ⟨rfl, hweighed.other rfl c, hid, by rw [Scene.latest_other_of_not hn, hweight]⟩

/-- The goal is read before anything else. -/
theorem outline_requireGoal :
    (requireGoal id).Outline (fun m c => m.weighs id c) (WeighedLast id w₀ fun _ => true)
      (HasRead id w₀ 1) fun s => s.calls = 0 ∧ WeighedLast id w₀ (fun _ => true) s := by
  have hask : (Program.ask (.goal id)).Outline (fun m c => m.weighs id c)
      (WeighedLast id w₀ fun _ => true)
      (fun (found : (Call.goal id).Reply) s => WeighedLast id w₀ (fun _ => true) s ∧
        ∀ goal, found = some goal → HasRead id w₀ 1 goal s)
      fun s => s.calls = 0 ∧ WeighedLast id w₀ (fun _ => true) s := by
    refine .ask ?_ ?_ ?_
    · rintro s c ⟨hcalls, hweighed⟩
      exact ⟨hcalls, hweighed.other rfl c⟩
    · rintro s found ⟨hcalls, hweighed⟩ hreply
      cases hreply
      refine ⟨hweighed, fun goal hget => ?_⟩
      obtain ⟨hid, hweight⟩ := hweighed.goal goal hget
      refine ⟨congrArg (· + 1) hcalls, hweighed, hid, hweight.trans ?_⟩
      -- all calls of the other program have been earlier
      rw [Scene.latest_own]
      refine Scene.latest_congr fun written hwritten => ?_
      have hnone : written.1 = 0 := Nat.le_zero.1 (hcalls ▸ s.past written hwritten)
      rw [hnone]
      rfl
    · rintro s e - hrefusal
      cases hrefusal
  refine hask.bind fun found => ?_
  cases found with
  | none => exact .fail fun s hs => hs.1
  | some goal => exact .done fun s hs => hs.2 goal rfl

/-- The status is read next, on which it depends only whether the edit goes on. -/
theorem outline_requireOpen (goal : Goal) (team : TeamId) (period : PeriodId) (action : Action) :
    (requireOpen team period action).Outline (fun m c => m.weighs id c)
      (WeighedLast id w₀ fun _ => true) (fun _ => HasRead id w₀ 2 goal) (HasRead id w₀ 1 goal) := by
  have hask : (Program.ask (.status team period)).Outline (fun m c => m.weighs id c)
      (WeighedLast id w₀ fun _ => true) (fun _ => HasRead id w₀ 2 goal) (HasRead id w₀ 1 goal) := by
    refine .ask (stable_hasRead goal rfl) ?_ ?_
    · rintro s status hread -
      exact ⟨congrArg (· + 1) hread.calls, hread.weighed, hread.id_eq, hread.weight_eq⟩
    · rintro s e - hrefusal
      cases hrefusal
  refine hask.bind fun status => ?_
  split
  · exact .fail fun s hs => hs.weighed
  · exact .done fun s hs => hs

/-- What the goal weighs after an edit for a team: the share of the team leaves the weight of the owner
as it was when the goal was read, and an edit for the owner sets it. -/
def Edited (id : GoalId) (w₀ : Weight) (team : TeamId) (edited : Goal) (s : Scene Weight) : Prop :=
  (edited.team ≠ team → 4 ≤ s.calls ∧ WeighedLast id w₀ (fun n => n < 1 || 4 ≤ n) s) ∧
    (edited.team = team → 3 ≤ s.calls ∧ WeighedLast id edited.weight (fun n => 3 ≤ n) s)

theorem stable_edited (team : TeamId) (edited : Goal) :
    Scene.Stable (fun m c => m.weighs id c) (Edited id w₀ team edited) := by
  rintro s c ⟨hshare, howner⟩
  refine ⟨fun hteam => ?_, fun hteam => ?_⟩
  · obtain ⟨hcalls, hweighed⟩ := hshare hteam
    exact ⟨hcalls, hweighed.other (by simp [hcalls]) c⟩
  · obtain ⟨hcalls, hweighed⟩ := howner hteam
    exact ⟨hcalls, hweighed.other (by simp [hcalls]) c⟩

/-- What an own call that fails leaves. -/
theorem WeighedLast.refused {s : Scene Weight} (h : WeighedLast id w₀ times s) {c : Call}
    {e : Failure} (hrefusal : (Memory.carry c s.store).1 = .error e) :
    WeighedLast id w₀ times (s.own c) where
  given := Int.le_trans h.given (touched_carry c s.store).lastId_le
  goal g hg := by
    obtain ⟨lastId, hstore⟩ := eq_of_records (s.store.undone_carry c e hrefusal)
    have hget : (Memory.carry c s.store).2.goals.get? id = some g := hg
    rw [hstore] at hget
    exact h.goal g hget

/-- The whole goal is set, with a weight that is the last to count. -/
theorem weighedLast_updateGoal {s : Scene Weight} (h : s.store.Weighed id w) {draft : GoalDraft}
    (hlatest : s.latest w₀ times = draft.weight) :
    WeighedLast id w₀ times (s.own (.updateGoal id draft)) := by
  have hcarry := h.carry (.updateGoal id draft)
  rw [weighs, if_pos rfl, Option.getD_some] at hcarry
  rw [WeighedLast, Scene.latest_own, hlatest]
  exact hcarry

/-- A goal that cannot be set is not there, and so has no weight. -/
theorem weighedLast_updateGoal_refused {s : Scene Weight} (h : s.store.Weighed id w)
    {draft : GoalDraft} {e : Failure}
    (hrefusal : (Memory.carry (.updateGoal id draft) s.store).1 = .error e) :
    WeighedLast id w₀ times (s.own (.updateGoal id draft)) where
  given := Int.le_trans h.given (touched_carry (.updateGoal id draft) s.store).lastId_le
  goal g hg := by
    simp only [Scene.own, Memory.carry, updateGoal] at hg hrefusal
    split at hrefusal
    · rename_i hnone
      simp only [hnone] at hg
      cases hg
    · cases hrefusal

/-- The edit of the owner, after which the goal weighs what the draft says. -/
theorem outline_edit_own {goal : Goal} {team : TeamId} (howner : goal.team = team)
    (draft : GoalDraft) :
    (Program.ask (.updateGoal (goal.apply draft).id (goal.apply draft).draft)).Outline
      (fun m c => m.weighs id c) (WeighedLast id w₀ fun _ => true)
      (fun _ => Edited id w₀ team (goal.apply draft)) (HasRead id w₀ 2 goal) := by
  refine .ask (stable_hasRead goal rfl) ?_ ?_
  · rintro s r hread -
    obtain rfl : (goal.apply draft).id = id := hread.id_eq
    refine ⟨fun hne => absurd howner hne, fun _ => ⟨?_, weighedLast_updateGoal hread.weighed ?_⟩⟩
    · simp [hread.calls]
    · -- no call of the other program has been so late
      refine Scene.latest_of_not fun n hn => ?_
      rw [hread.calls] at hn
      simp only [decide_eq_false_iff_not]
      omega
  · rintro s e hread hrefusal
    exact hread.weighed.refused hrefusal

/-- The place between the two writes of an edit for a team with a share. -/
structure BetweenWrites (id : GoalId) (w₀ : Weight) (goal : Goal) (s : Scene Weight) : Prop where
  calls : s.calls = 3
  weighed : ∃ w, s.store.Weighed id w
  id_eq : goal.id = id
  weight_eq : goal.weight = s.latest w₀ fun n => n < 1 || 4 ≤ n

theorem stable_betweenWrites (goal : Goal) :
    Scene.Stable (fun m c => m.weighs id c) (BetweenWrites id w₀ goal) := by
  rintro s c ⟨hcalls, ⟨w, hweighed⟩, hid, hweight⟩
  refine ⟨hcalls, ⟨_, hweighed.carry c⟩, hid, ?_⟩
  rw [Scene.latest_other_of_not (by simp [hcalls]), hweight]

/-- The weight of the team is set first. -/
theorem outline_share_first (goal : Goal) (team : TeamId) (weight : Weight) :
    (Program.ask (.setTeamWeight goal.id team weight)).Outline (fun m c => m.weighs id c)
      (WeighedLast id w₀ fun _ => true) (fun _ => BetweenWrites id w₀ goal)
      (HasRead id w₀ 2 goal) := by
  refine .ask (stable_hasRead goal rfl) ?_ ?_
  · rintro s r hread -
    exact ⟨congrArg (· + 1) hread.calls, ⟨_, Weighed.carry hread.weighed _⟩, hread.id_eq,
      hread.weight_eq⟩
  · rintro s e hread hrefusal
    exact hread.weighed.refused hrefusal

/-- Then the goal is written, with the weight of the owner that has been read. -/
theorem outline_write_back (goal edited : Goal) {team : TeamId} (hteam : edited.team ≠ team)
    (hid : edited.id = goal.id) (hweight : edited.weight = goal.weight) :
    (Program.ask (.updateGoal edited.id edited.draft)).Outline (fun m c => m.weighs id c)
      (WeighedLast id w₀ fun _ => true) (fun _ => Edited id w₀ team edited)
      (BetweenWrites id w₀ goal) := by
  refine .ask (stable_betweenWrites goal) ?_ ?_
  · rintro s r ⟨hcalls, ⟨w, hweighed⟩, rfl, hread⟩ -
    refine ⟨fun _ => ⟨?_, ?_⟩, fun howner => absurd howner hteam⟩
    · simp [hcalls]
    · rw [hid]
      exact weighedLast_updateGoal hweighed (hread.symm.trans hweight.symm)
  · rintro s e ⟨-, ⟨w, hweighed⟩, rfl, -⟩ hrefusal
    rw [hid] at hrefusal ⊢
    exact weighedLast_updateGoal_refused hweighed hrefusal

/-- **The places of an edit for a team, beside any other program.** -/
theorem outline_update (team : TeamId) (draft : GoalDraft) :
    (Goals.update id (some team) draft).Outline (fun m c => m.weighs id c)
      (WeighedLast id w₀ fun _ => true) (Edited id w₀ team)
      fun s => s.calls = 0 ∧ WeighedLast id w₀ (fun _ => true) s := by
  refine (Outline.check _ fun s hs => hs.2).bind fun draft => ?_
  refine outline_requireGoal.bind fun goal => ?_
  refine (outline_requireOpen goal _ _ _).bind fun _ => ?_
  split
  · rename_i howner
    have hteam : goal.team = team := by simpa [Goal.isOwnedBy] using howner
    exact (outline_edit_own hteam draft).bind fun _ => .done fun s hs => hs
  · rename_i hother
    have hteam : goal.team ≠ team := by simpa [Goal.isOwnedBy] using hother
    refine (outline_share_first goal team draft.weight).bind fun _ => ?_
    refine (outline_write_back goal { goal.apply draft with weight := goal.weight } hteam rfl
      rfl).bind fun _ => ?_
    exact .done fun s hs => hs

end Weights

/-- **The weight of a goal after an edit for a team beside another program.**  An edit that has failed has
not changed it.  One for a team that did not own the goal when it was read has put it back to what it
weighed then: of what the other program has written, all counts but what it has written after the first
call of the edit and before the fourth.  One for the owner has set it with its third call. -/
theorem weight_after_update {β : Type} {m : Memory} (hm : m.Reachable) {id : GoalId} {g : Goal}
    (hget : m.goals.get? id = some g) (team : TeamId) (draft : GoalDraft) (other : Program β)
    (turns : List Side) :
    let d := (Duo.start m (Goals.update id (some team) draft) other).play
      (fun m c => m.weighs id c) turns
    ∀ g', d.scene.store.goals.get? id = some g' →
      (∀ e, d.left = .fail e → g'.weight = d.scene.latest g.weight fun _ => true) ∧
      ∀ edited, d.left = .done edited →
        (edited.team ≠ team →
          g'.weight = d.scene.latest g.weight (fun n => n < 1 || 4 ≤ n) ∧
          ((∀ written ∈ d.scene.marks, written.1 < 1 ∨ 4 ≤ written.1) →
            g'.weight = d.scene.latest g.weight fun _ => true)) ∧
        (edited.team = team → g'.weight = d.scene.latest edited.weight fun n => 3 ≤ n) := by
  intro d g' hg'
  have hstart : WeighedLast id g.weight (fun _ => true) (.start m) := by
    refine ⟨hm.sound.ledger.given id g hget, fun g₁ hg₁ => ?_⟩
    have hsame : g₁ = g := Option.some_inj.1 (hg₁.symm.trans hget)
    rw [hsame]
    exact ⟨hm.sound.ledger.goalKeyed id g hget, rfl⟩
  obtain ⟨hfail, hdone⟩ := Duo.outline_play stable_weighedLast (stable_edited team)
    (d := Duo.start m (Goals.update id (some team) draft) other) (outline_update team draft)
    ⟨rfl, hstart⟩ turns
  refine ⟨fun e he => ((hfail e he).goal g' hg').2, fun edited hedited => ?_⟩
  refine ⟨fun hteam => ?_, fun hteam => ?_⟩
  · have hweight := (((hdone edited hedited).1 hteam).2.goal g' hg').2
    refine ⟨hweight, fun hbeside => hweight.trans ?_⟩
    refine Scene.latest_congr fun written hwritten => ?_
    simpa using hbeside written hwritten
  · exact (((hdone edited hedited).2 hteam).2.goal g' hg').2

/-- The fields of the goal of two teams, with another weight. -/
def weighing (weight : Weight) : GoalDraft :=
  ⟨"Grow", "", .p0, weight, .delivery, .stability, ""⟩

/-- An edit of that goal for the team with a share beside one for the owner. -/
def edits : Duo Goal Goal Weight :=
  .start oneShare (Goals.update 4 (some 2) (weighing ⟨33, by decide⟩))
    (Goals.update 4 none (weighing ⟨66, by decide⟩))

/-- The owner's edit is made after the other has read the goal, and before it writes. -/
def ownerBetween : List Side := [.left, .right, .right, .right, .left, .left, .left]

/-- **The weight that the owner has set is lost**, and the goal weighs what it weighed before. -/
theorem owner_weight_lost :
    ∃ edited written g', oneShare.Reachable ∧ oneShare.shares.contains (4, 2) = true ∧
      (edits.play (fun m c => m.weighs 4 c) ownerBetween).left = .done edited ∧
      (edits.play (fun m c => m.weighs 4 c) ownerBetween).right = .done written ∧
      (edits.play (fun m c => m.weighs 4 c) ownerBetween).scene.store.goals.get? 4 = some g' ∧
      (edits.play (fun m c => m.weighs 4 c) ownerBetween).scene.latest grow.weight (fun _ => true) =
        ⟨66, by decide⟩ ∧
      g'.weight = ⟨60, by decide⟩ :=
  ⟨_, _, _, reachable_oneShare, by rfl, by rfl, by rfl, by rfl, by rfl, by rfl⟩

/-- With what has been written between the two calls left out, the formula gives what is there. -/
theorem weight_after_update_ownerBetween :
    ∃ edited g', oneShare.Reachable ∧ oneShare.goals.get? 4 = some grow ∧ edited.team ≠ 2 ∧
      (edits.play (fun m c => m.weighs 4 c) ownerBetween).left = .done edited ∧
      (edits.play (fun m c => m.weighs 4 c) ownerBetween).scene.store.goals.get? 4 = some g' ∧
      g'.weight = (edits.play (fun m c => m.weighs 4 c) ownerBetween).scene.latest grow.weight
        (fun n => n < 1 || 4 ≤ n) := by
  have hgoal : oneShare.goals.get? 4 = some grow := by rfl
  have hleft : (edits.play (fun m c => m.weighs 4 c) ownerBetween).left = .done grow := by rfl
  have hafter : (edits.play (fun m c => m.weighs 4 c) ownerBetween).scene.store.goals.get? 4 =
      some grow := by rfl
  have hother : grow.team ≠ 2 := by decide
  have hweight := weight_after_update reachable_oneShare hgoal 2 (weighing ⟨33, by decide⟩)
    (Goals.update 4 none (weighing ⟨66, by decide⟩)) ownerBetween grow hafter
  exact ⟨grow, grow, reachable_oneShare, hgoal, hother, hleft, hafter,
    ((hweight.2 grow hleft).1 hother).1⟩

/-! ### The status of a team -/

section Statuses

variable {m : Memory} {team : TeamId} {period : PeriodId} {st₀ : Status} {times : Nat → Bool}

/-- A call sets the status of the team, or leaves it. -/
theorem statusOf_carry (m : Memory) (c : Call) :
    (carry c m).2.statusOf team period = (c.sets team period).getD (m.statusOf team period) := by
  by_cases hs : c.subject = .statuses
  · cases c with
    | setStatus t p status =>
      simp only [carry, statusOf, Call.sets, Table.get?_insert, Prod.mk.injEq]
      split <;> rfl
    | move item direction => cases item <;> cases hs
    | _ => cases hs
  · rw [statusOf, (touched_carry c m).statuses hs]
    cases c with
    | setStatus t p status => exact absurd rfl hs
    | _ => rfl

/-- The team has the status that the last call of the other program that counts has set. -/
def StatusLast (team : TeamId) (period : PeriodId) (st₀ : Status) (times : Nat → Bool)
    (s : Scene Status) : Prop :=
  s.store.statusOf team period = s.latest st₀ times

theorem StatusLast.other {s : Scene Status} (h : StatusLast team period st₀ times s)
    (htimes : times s.calls = true) (c : Call) :
    StatusLast team period st₀ times (s.other (fun _ c => c.sets team period) c) := by
  rw [StatusLast, Scene.latest_other htimes, ← h]
  exact statusOf_carry s.store c

theorem StatusLast.own {s : Scene Status} (h : StatusLast team period st₀ times s) {c : Call}
    (hc : c.sets team period = none) : StatusLast team period st₀ times (s.own c) := by
  rw [StatusLast, Scene.latest_own, ← h]
  refine (statusOf_carry s.store c).trans ?_
  rw [hc, Option.getD_none]

theorem stable_statusLast :
    Scene.Stable (fun _ c => c.sets team period) (StatusLast team period st₀ fun _ => true) :=
  fun _ c h => h.other rfl c

/-- The places of a creation before the status is read. -/
def Unread (team : TeamId) (period : PeriodId) (st₀ : Status) (n : Nat) (s : Scene Status) : Prop :=
  s.calls = n ∧ StatusLast team period st₀ (fun _ => true) s

theorem stable_unread (n : Nat) :
    Scene.Stable (fun _ c => c.sets team period) (Unread team period st₀ n) := by
  rintro s c ⟨hcalls, hstatus⟩
  exact ⟨hcalls, hstatus.other rfl c⟩

/-- A look-up that goes before. -/
theorem outline_look {c : Call} (hc : c.sets team period = none) (n : Nat) :
    (Program.ask c).Outline (fun _ c => c.sets team period)
      (StatusLast team period st₀ fun _ => true) (fun _ => Unread team period st₀ (n + 1))
      (Unread team period st₀ n) := by
  refine .ask (stable_unread n) ?_ ?_
  · rintro s r ⟨hcalls, hstatus⟩ -
    exact ⟨congrArg (· + 1) hcalls, hstatus.own hc⟩
  · rintro s e ⟨hcalls, hstatus⟩ -
    exact hstatus.own hc

theorem outline_requireTeam (id : TeamId) (n : Nat) :
    (requireTeam id).Outline (fun _ c => c.sets team period)
      (StatusLast team period st₀ fun _ => true) (fun _ => Unread team period st₀ (n + 1))
      (Unread team period st₀ n) :=
  (outline_look rfl n).bind fun found => .expect _ found fun _ hs => hs.2

theorem outline_requirePeriod (id : PeriodId) (n : Nat) :
    (requirePeriod id).Outline (fun _ c => c.sets team period)
      (StatusLast team period st₀ fun _ => true) (fun _ => Unread team period st₀ (n + 1))
      (Unread team period st₀ n) :=
  (outline_look rfl n).bind fun found => .expect _ found fun _ hs => hs.2

/-- The places of a creation after the status has been read: it is the one that the team had before any
later call of the other program. -/
structure StatusRead (team : TeamId) (period : PeriodId) (st₀ : Status) (n : Nat) (status : Status)
    (s : Scene Status) : Prop where
  calls : s.calls = n
  last : StatusLast team period st₀ (fun _ => true) s
  read : status = s.latest st₀ fun n => n ≤ 2

theorem stable_statusRead (status : Status) {n : Nat} (hn : 2 < n) :
    Scene.Stable (fun _ c => c.sets team period) (StatusRead team period st₀ n status) := by
  rintro s c ⟨rfl, hlast, hread⟩
  exact ⟨rfl, hlast.other rfl c, by rw [Scene.latest_other_of_not (by simpa using hn), hread]⟩

theorem outline_readStatus (action : Action) :
    (requireOpen team period action).Outline (fun _ c => c.sets team period)
      (StatusLast team period st₀ fun _ => true) (StatusRead team period st₀ 3)
      (Unread team period st₀ 2) := by
  have hask : (Program.ask (.status team period)).Outline (fun _ c => c.sets team period)
      (StatusLast team period st₀ fun _ => true)
      (fun (status : (Call.status team period).Reply) => StatusRead team period st₀ 3 status)
      (Unread team period st₀ 2) := by
    refine .ask (stable_unread 2) ?_ ?_
    · rintro s status ⟨hcalls, hstatus⟩ hreply
      cases hreply
      refine ⟨congrArg (· + 1) hcalls, hstatus.own rfl, hstatus.trans ?_⟩
      -- all calls of the other program have been earlier
      rw [Scene.latest_own]
      refine Scene.latest_congr fun written hwritten => ?_
      have hearlier : written.1 ≤ 2 := hcalls ▸ s.past written hwritten
      simpa using hearlier
    · rintro s e - hrefusal
      cases hrefusal
  refine hask.bind fun status => ?_
  split
  · exact .fail fun s hs => hs.last
  · exact .done fun s hs => hs

/-- The status of the team after the creation of a goal: if there was none when it was read, that of a
team with a first goal, unless it has been set since. -/
def GoalAdded (team : TeamId) (period : PeriodId) (st₀ : Status) (s : Scene Status) : Prop :=
  4 ≤ s.calls ∧
    if s.latest st₀ (fun n => n ≤ 2) = .noGoals then
      5 ≤ s.calls ∧ StatusLast team period .forming (fun n => 5 ≤ n) s
    else StatusLast team period st₀ (fun _ => true) s

theorem stable_goalAdded :
    Scene.Stable (fun _ c => c.sets team period) (GoalAdded team period st₀) := by
  rintro s c ⟨hcalls, hstatus⟩
  have hnot : decide (s.calls ≤ 2) = false := by
    simp only [decide_eq_false_iff_not]
    omega
  refine ⟨hcalls, ?_⟩
  rw [Scene.latest_other_of_not hnot]
  split
  · rename_i hnone
    rw [if_pos hnone] at hstatus
    exact ⟨hstatus.1, hstatus.2.other (by simpa using hstatus.1) c⟩
  · rename_i hsome
    rw [if_neg hsome] at hstatus
    exact hstatus.other rfl c

/-- The status changes only if there was none. -/
theorem afterGoalCreated_ne_iff {status : Status} :
    status.afterGoalCreated ≠ status ↔ status = .noGoals := by
  cases status <;> decide

/-- The status that follows from the one that was read is set. -/
theorem outline_setForming :
    (Program.ask (.setStatus team period .forming)).Outline (fun _ c => c.sets team period)
      (StatusLast team period st₀ fun _ => true) (fun _ => GoalAdded team period st₀)
      (StatusRead team period st₀ 4 .noGoals) := by
  refine .ask (stable_statusRead .noGoals (by decide)) ?_ ?_
  · rintro s r ⟨hcalls, -, hread⟩ -
    refine ⟨by simp [hcalls], ?_⟩
    rw [Scene.latest_own, if_pos hread.symm]
    refine ⟨by simp [hcalls], ?_⟩
    -- no call of the other program has been so late
    have hnone : s.latest .forming (fun n => 5 ≤ n) = .forming := by
      refine Scene.latest_of_not fun n hn => ?_
      rw [hcalls] at hn
      simp only [decide_eq_false_iff_not]
      omega
    rw [StatusLast, Scene.latest_own, hnone]
    refine (statusOf_carry s.store (.setStatus team period .forming)).trans ?_
    rw [Call.sets, if_pos ⟨rfl, rfl⟩, Option.getD_some]
  · rintro s e - hrefusal
    cases hrefusal

/-- **The places of a creation, beside any other program.** -/
theorem outline_create (team : TeamId) (period : PeriodId) (draft : GoalDraft) :
    (Goals.create team period draft).Outline (fun _ c => c.sets team period)
      (StatusLast team period st₀ fun _ => true) (fun _ => GoalAdded team period st₀)
      (Unread team period st₀ 0) := by
  refine (Outline.check _ fun s hs => hs.2).bind fun draft => ?_
  refine (outline_requireTeam team 0).bind fun _ => ?_
  refine (outline_requirePeriod period 1).bind fun _ => ?_
  refine (outline_readStatus .createGoal).bind fun status => ?_
  have hcreate : (Program.ask (.createGoal team period draft)).Outline
      (fun _ c => c.sets team period) (StatusLast team period st₀ fun _ => true)
      (fun _ => StatusRead team period st₀ 4 status) (StatusRead team period st₀ 3 status) := by
    refine .ask (stable_statusRead status (by decide)) ?_ ?_
    · rintro s goal ⟨hcalls, hlast, hread⟩ -
      exact ⟨congrArg (· + 1) hcalls, hlast.own rfl, hread⟩
    · rintro s e - hrefusal
      cases hrefusal
  refine hcreate.bind fun goal => ?_
  show Outline _ _ _ (if _ then _ else _) _
  split
  · rename_i hnext
    obtain rfl := afterGoalCreated_ne_iff.1 hnext
    exact outline_setForming.bind fun _ => .done fun s hs => hs
  · rename_i hnext
    refine .done fun s hs => ⟨by simp [hs.calls], ?_⟩
    rw [if_neg fun hnone => hnext (afterGoalCreated_ne_iff.2 (hs.read.trans hnone))]
    exact hs.last

end Statuses

/-- **The status of a team after the creation of a goal beside another program.**  It is the last that the
other program has set, or the one of before, if the creation has failed or has found a goal set.  If it
has found none, it has set the status with its fifth call; what the other program has set after the
third and before the fifth is lost. -/
theorem status_after_create {β : Type} (m : Memory) (team : TeamId) (period : PeriodId)
    (draft : GoalDraft) (other : Program β) (turns : List Side) :
    let d := (Duo.start m (Goals.create team period draft) other).play
      (fun _ c => c.sets team period) turns
    (∀ e, d.left = .fail e → d.scene.store.statusOf team period =
      d.scene.latest (m.statusOf team period) fun _ => true) ∧
    ∀ created, d.left = .done created → d.scene.store.statusOf team period =
      if d.scene.latest (m.statusOf team period) (fun n => n ≤ 2) = .noGoals then
        d.scene.latest .forming fun n => 5 ≤ n
      else d.scene.latest (m.statusOf team period) fun _ => true := by
  intro d
  have hstart : Unread team period (m.statusOf team period) 0 (.start m) := ⟨rfl, rfl⟩
  obtain ⟨hfail, hdone⟩ := Duo.outline_play (d := Duo.start m (Goals.create team period draft) other)
    stable_statusLast (fun _ => stable_goalAdded) (outline_create team period draft) hstart turns
  refine ⟨fun e he => hfail e he, fun created hcreated => ?_⟩
  obtain ⟨-, hstatus⟩ := hdone created hcreated
  split at hstatus
  · rename_i hnone
    rw [if_pos hnone]
    exact hstatus.2
  · rename_i hsome
    rw [if_neg hsome]
    exact hstatus

/-- Setting a status leaves one mark, of that status. -/
theorem marking_set (team : TeamId) (period : PeriodId) (status : Status) :
    (Statuses.set team period status).Marking (fun _ c => c.sets team period) [status] := by
  have hteam : (requireTeam team).Marking (fun _ c => c.sets team period) [] :=
    (Program.Marking.ask_silent fun _ => rfl).bind fun found => .expect _ found
  have hperiod : (requirePeriod period).Marking (fun _ c => c.sets team period) [] :=
    (Program.Marking.ask_silent fun _ => rfl).bind fun found => .expect _ found
  have hset : (Program.ask (.setStatus team period status)).Marking
      (fun _ c => c.sets team period) [status] :=
    .ask_marked fun _ => if_pos ⟨rfl, rfl⟩
  refine hteam.bind fun _ => hperiod.bind fun _ => ?_
  refine (Program.Marking.ask_silent fun _ => rfl).bind fun previous => ?_
  exact hset.bind fun _ => .done

/-- **The status of a team after the creation of a goal beside a change of the status.**  The status that
is set, other than that there is no goal, is the status in the end, unless the creation has found no
goal set, and the status is set after the third call of the creation and before the fifth. -/
theorem status_after_create_and_set (m : Memory) (team : TeamId) (period : PeriodId)
    (draft : GoalDraft) {status : Status} (hstatus : status ≠ .noGoals) (turns : List Side)
    {changed : StatusChanged} :
    let d := (Duo.start m (Goals.create team period draft)
      (Statuses.set team period status)).play (fun _ c => c.sets team period) turns
    d.right = .done changed → ∃ n, d.scene.marks = [(n, status)] ∧
      (∀ e, d.left = .fail e → d.scene.store.statusOf team period = status) ∧
      ∀ created, d.left = .done created → d.scene.store.statusOf team period =
        if m.statusOf team period = .noGoals ∧ (n = 3 ∨ n = 4) then .forming else status := by
  intro d hright
  have hmarks : d.scene.marks.map Prod.snd = [status] :=
    Duo.marks_play (marking_set team period status) turns hright
  obtain ⟨⟨n, _⟩, hsingle, rfl⟩ := List.map_eq_singleton_iff.1 hmarks
  obtain ⟨hfail, hdone⟩ := status_after_create m team period draft
    (Statuses.set team period _) turns
  refine ⟨n, hsingle, fun e he => ?_, fun created hcreated => ?_⟩
  · rw [hfail e he, Scene.latest_of_single hsingle, if_pos rfl]
  · rw [hdone created hcreated, Scene.latest_of_single hsingle, Scene.latest_of_single hsingle,
      Scene.latest_of_single hsingle]
    by_cases hearly : n ≤ 2
    · -- the status is there when it is read
      have hnot : ¬ (n = 3 ∨ n = 4) := by omega
      simp [hearly, hnot, hstatus]
    · by_cases hlate : 5 ≤ n
      · have hnot : ¬ (n = 3 ∨ n = 4) := by omega
        simp [hlate, hnot]
      · have hbetween : n = 3 ∨ n = 4 := by omega
        simp [hearly, hlate, hbetween]

/-- A store with a team and a period, and no goals. -/
def noGoalYet : Memory :=
  ((Memory.empty.addTeam "Products" .unit none).2.createPeriod "Q1" ⟨2025, 1, 1⟩ ⟨2025, 3, 31⟩).2

/-- The creation of a first goal beside the closing of the period. -/
def closing : Duo GoalCreated StatusChanged Status :=
  .start noGoalYet (Goals.create 1 2 (weighing grow.weight)) (Statuses.set 1 2 .closed)

/-- The period is closed after the creation has read the status, and before it sets one. -/
def closedBetween : List Side :=
  [.left, .left, .left, .right, .right, .right, .right, .left, .left]

/-- **The period that has been closed is open again.** -/
theorem closed_status_lost :
    ∃ created changed, noGoalYet.Reachable ∧
      (closing.play (fun _ c => c.sets 1 2) closedBetween).left = .done created ∧
      (closing.play (fun _ c => c.sets 1 2) closedBetween).right = .done changed ∧
      changed.status = .closed ∧
      (closing.play (fun _ c => c.sets 1 2) closedBetween).scene.store.statusOf 1 2 = .forming :=
  ⟨_, _, (Reachable.empty.addTeam _ _ _).createPeriod _ _ _, by rfl, by rfl, by rfl, by rfl⟩

/-- The same run: the status is set after the third call of the creation, and lost. -/
theorem status_after_create_and_set_closedBetween :
    Status.closed ≠ .noGoals ∧ ∃ n created changed,
      (closing.play (fun _ c => c.sets 1 2) closedBetween).left = .done created ∧
      (closing.play (fun _ c => c.sets 1 2) closedBetween).right = .done changed ∧
      (closing.play (fun _ c => c.sets 1 2) closedBetween).scene.marks = [(n, .closed)] ∧
      (closing.play (fun _ c => c.sets 1 2) closedBetween).scene.store.statusOf 1 2 =
        if noGoalYet.statusOf 1 2 = .noGoals ∧ (n = 3 ∨ n = 4) then .forming else .closed := by
  have hright : (closing.play (fun _ c => c.sets 1 2) closedBetween).right =
      .done ⟨.noGoals, .closed⟩ := by rfl
  obtain ⟨n, hmarks, -, hdone⟩ := status_after_create_and_set noGoalYet 1 2
    (weighing grow.weight) (by decide : Status.closed ≠ .noGoals) closedBetween hright
  exact ⟨by decide, n, _, _, by rfl, hright, hmarks, hdone _ (by rfl)⟩

end Memory

end Objectives
