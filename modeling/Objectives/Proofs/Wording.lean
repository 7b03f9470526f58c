/- # The wording of a goal

A goal is worded by its owner and by every team that has a share in it: an edit is let in if the period
is not closed for the team that makes it.  While the period is closed for the owner, the wording is left
to the other teams for which it is not.

Main definitions:

* `Goal.wording` — the texts of a goal and how it is classified;
* `Call.Retains` — whether a call leaves a goal in place and its wording alone.

Main results:

* `Memory.map_get?_goals_after` — calls that retain a goal change its owner, its weight and its place
  alone;
* `Memory.reworded_while_closed` — the edit of a team with a share changes the wording of a goal of a
  team whose period is closed;
* `Memory.worded_while_closed` — **nothing else changes it**.
-/

import Objectives.Proofs.Freeze

set_option relaxedAutoImplicit false
set_option autoImplicit false

namespace Objectives

/-- The texts of a goal and how it is classified. -/
def Goal.wording (g : Goal) : String × String × Priority × WorkType × FocusType × String :=
  (g.title, g.description, g.priority, g.workType, g.focusType, g.ownerText)

/-- The call neither edits the goal nor removes it. -/
def Call.Retains (id : GoalId) : Call → Prop
  | .updateGoal i _ | .deleteGoal i => i ≠ id
  | _ => True

namespace Memory

variable {m : Memory} {id : GoalId} {g : Goal}

/-! ### What is left to a goal -/

theorem unowned_wording : Unowned Goal.wording := fun _ _ _ _ => rfl

section Retained

variable {α : Type} {field : Goal → α}

/-- A call that retains a goal changes its owner, its weight and its place alone. -/
theorem map_get?_goals_carry (hfield : Unowned field) (hgiven : id ≤ m.lastId) {c : Call}
    (hc : c.Retains id) :
    ((carry c m).2.goals.get? id).map field = (m.goals.get? id).map field := by
  by_cases hs : c.subject = .goals ∨ c.subject = .wholeGoal
  · cases c with
    | createGoal owner period draft =>
      have hne : m.lastId + 1 ≠ id := (Int.ne_of_lt (Int.lt_add_one_of_le hgiven)).symm
      exact congrArg (Option.map field) (Table.get?_insert_of_ne _ _ hne)
    | updateGoal i draft =>
      simp only [carry, updateGoal]
      split
      · rfl
      · rw [Table.get?_insert_of_ne _ _ hc]
    | deleteGoal i =>
      simp only [carry, deleteGoal]
      split
      · rw [Table.get?_erase_of_ne _ (Ne.symm hc)]
      · rfl
    | replaceShares plan => exact map_get?_replaceShares hfield plan id
    | removeShare i team => rfl
    | promote share => exact map_get?_promote hfield share id
    | setTeamWeight i team weight => exact map_get?_setTeamWeight hfield i team weight id
    | move item direction =>
      cases item with
      | goal i asTeam => exact map_get?_moveGoal hfield i asTeam direction id
      | keyResult i => rcases hs with hs | hs <;> cases hs
      | period i => rcases hs with hs | hs <;> cases hs
    | _ => rcases hs with hs | hs <;> cases hs
  · -- any other call leaves the goals as they are
    rw [not_or] at hs
    rw [((touched_carry c m).goals_shares hs.1 hs.2).1]

theorem map_get?_goals_after (hfield : Unowned field) (hgiven : id ≤ m.lastId) {calls : List Call}
    (hcalls : ∀ c ∈ calls, c.Retains id) :
    ((m.after calls).goals.get? id).map field = (m.goals.get? id).map field := by
  -- the identifier has been given all along, so that none of the calls creates the goal
  refine (after_keeps (P := fun m' => id ≤ m'.lastId ∧
    (m'.goals.get? id).map field = (m.goals.get? id).map field) ?_ ⟨hgiven, rfl⟩).2
  rintro c hc m' ⟨hgiven', hsame⟩
  exact ⟨Int.le_trans hgiven' (touched_carry c m').lastId_le,
    (map_get?_goals_carry hfield hgiven' (hcalls c hc)).trans hsame⟩

end Retained

/-! ### The commands -/

/-- The edit of a goal for a team that does not own it leaves the goal as the draft has it, but for the
weight of the owner. -/
theorem get?_edit_shared (hget : m.goals.get? id = some g) {team : TeamId} (hother : team ≠ g.team)
    (weight : Weight) (tidy : GoalDraft) :
    (m.after [.setTeamWeight id team weight, .updateGoal id tidy]).goals.get? id =
      some (g.apply tidy) := by
  have hsame : (carry (.setTeamWeight id team weight) m).2.goals = m.goals := by
    have howner : ¬ g.isOwnedBy team = true := mt Goal.isOwnedBy_iff.1 hother
    simp only [carry, setTeamWeight, hget, if_neg howner]
    exact setShareWeight_goals m id team weight
  rw [← hsame] at hget
  simp only [after_cons, after_nil]
  generalize (carry (.setTeamWeight id team weight) m).2 = m₁ at hget
  simp only [carry, updateGoal, hget]
  exact Table.get?_insert_self ..

/-- The event is the edit of a goal for a team that shares in it and whose period is not closed; it
leaves the goal as the tidied draft has it, but for the weight of the owner. -/
def EditedByShare (m : Memory) (id : GoalId) (g : Goal) (e : Event) : Prop :=
  ∃ team draft tidy, e = .command (.updateGoal id (some team) draft) ∧
    draft.normalized = .ok tidy ∧ team ≠ g.team ∧ m.shares.contains (id, team) = true ∧
    m.statusOf team g.period ≠ .closed ∧
    (m.happen e).goals.get? id = some (g.apply { tidy with weight := g.weight })

/-- Whatever happens next, a goal of a team whose period is closed keeps its wording, unless a team with
a share edits it. -/
theorem wording_happen (h : m.Reachable) (hget : m.goals.get? id = some g)
    (hclosed : m.statusOf g.team g.period = .closed) (e : Event) :
    ((m.happen e).goals.get? id).map Goal.wording = some g.wording ∨ m.EditedByShare id g e := by
  have hgiven := h.sound.ledger.given id g hget
  have hkept : ∀ {calls : List Call}, m.happen e = m.after calls → (∀ c ∈ calls, c.Retains id) →
      ((m.happen e).goals.get? id).map Goal.wording = some g.wording := by
    intro calls hafter hcalls
    rw [hafter, map_get?_goals_after unowned_wording hgiven hcalls, hget, Option.map_some]
  rcases happen_cases h e with hsame | ⟨c, rfl, hopen, calls, hwrites, hafter⟩
  · rw [hsame.goals, hget]
    exact .inl rfl
  · cases hwrites with
    | editOwn _ hget' howner =>
      have hne := ne_of_open _ hget hclosed hget' howner hopen
      exact .inl (hkept hafter (by simp [Call.Retains, hne]))
    | @editShared i asTeam draft tidy g' hdraft hget' hother hshare =>
      -- the one command that is let in on behalf of another team and writes texts
      by_cases hi : i = id
      · subst hi
        rw [hget, Option.some_inj] at hget'
        subst hget'
        obtain ⟨team, rfl⟩ : ∃ team, asTeam = some team := by
          cases asTeam with
          | none => exact absurd rfl hother
          | some team => exact ⟨team, rfl⟩
        refine .inr ⟨team, draft, tidy, rfl, hdraft, hother, hshare, ?_, ?_⟩
        · exact hopen team g.period (by simp [Command.acting, hget])
        · rw [hafter]
          exact get?_edit_shared hget hother _ _
      · exact .inl (hkept hafter (by simp [Call.Retains, hi]))
    | remove hget' howner _ =>
      have hne := ne_of_open _ hget hclosed hget' howner hopen
      exact .inl (hkept hafter (by simp [Call.Retains, hne]))
    | _ => exact .inl (hkept hafter (by simp [Call.Retains]))

/-! ### Runs -/

/-- The edit of a team with a share changes the wording of a goal, though the period is closed for the
owner all along. -/
theorem reworded_while_closed :
    let events : List Event := [.command (.updateGoal 4 (some 2) rewording)]
    ∃ g, sealedGoal.Reachable ∧ sealedGoal.goals.get? 4 = some g ∧
      (sealedGoal.Throughout events fun m' => m'.Sealed 4 g.team g.period) ∧
      ¬ sealedGoal.Throughout events fun m' =>
        (m'.goals.get? 4).map Goal.wording = some g.wording := by
  intro events
  have hget : sealedGoal.goals.get? 4 = some grow := by decide +kernel
  have hsealed : sealedGoal.Throughout events fun m' => m'.Sealed 4 1 3 :=
    .cons (by decide +kernel) (.nil (by decide +kernel))
  refine ⟨_, reachable_sealedGoal, hget, hsealed, fun hworded => ?_⟩
  have hchanged : ((sealedGoal.play events).goals.get? 4).map Goal.wording =
      some ("Shrink", "", .p1, .delivery, .stability, "") := by decide +kernel
  exact absurd (hchanged.symm.trans (hworded events [] rfl)) (by decide)

/-- **As long as the period is closed for the owner of a goal, and the goal with its owner, an event
leaves the wording of the goal as it is, or it is the edit of a team that shares in the goal and whose
period is not closed; and if no such team has an open period the wording stays as it was.** -/
theorem worded_while_closed (hm : m.Reachable) {events : List Event}
    (hget : m.goals.get? id = some g)
    (hsealed : m.Throughout events fun m' => m'.Sealed id g.team g.period) :
    (∀ before e after, events = before ++ e :: after →
      ∃ g', (m.play before).goals.get? id = some g' ∧ g'.team = g.team ∧ g'.period = g.period ∧
        ((((m.play before).happen e).goals.get? id).map Goal.wording = some g'.wording ∨
          (m.play before).EditedByShare id g' e)) ∧
    ((m.Throughout events fun m' => ∀ team, m'.shares.contains (id, team) = true →
        m'.statusOf team g.period = .closed) →
      m.Throughout events fun m' => (m'.goals.get? id).map Goal.wording = some g.wording) := by
  have hthere : m.Throughout events fun m' =>
      ∃ g', m'.goals.get? id = some g' ∧ g'.team = g.team ∧ g'.period = g.period := by
    intro before after hsplit
    obtain ⟨g', hget', hperiod⟩ :=
      (frozen_throughout hm hget hsealed before after hsplit).exists_goal hget
    exact ⟨g', hget', (hsealed before after hsplit).2 g' hget', hperiod⟩
  constructor
  · intro before e after hsplit
    obtain ⟨g', hget', hteam, hperiod⟩ := hthere before (e :: after) hsplit
    refine ⟨g', hget', hteam, hperiod, wording_happen (hm.play before) hget' ?_ e⟩
    rw [hteam, hperiod]
    exact (hsealed before (e :: after) hsplit).1
  · intro hshares
    have hall : m.Throughout events fun m' =>
        (∃ g', m'.goals.get? id = some g' ∧ g'.team = g.team ∧ g'.period = g.period) ∧
          m'.Sealed id g.team g.period ∧
          ∀ team, m'.shares.contains (id, team) = true → m'.statusOf team g.period = .closed :=
      fun before after hsplit =>
        ⟨hthere before after hsplit, hsealed before after hsplit, hshares before after hsplit⟩
    refine .of_step hm hall (by rw [hget, Option.map_some]) ?_
    rintro m' e hm' ⟨⟨g', hget', hteam, hperiod⟩, ⟨hclosed, -⟩, hlocked⟩ - hworded
    rw [hget', Option.map_some] at hworded
    rw [← hteam, ← hperiod] at hclosed
    rcases wording_happen hm' hget' hclosed e with hkept | ⟨team, _, _, _, _, _, hshare, hopen, _⟩
    · exact hkept.trans hworded
    · rw [hperiod] at hopen
      exact absurd (hlocked team hshare) hopen

/-- The store `sealedGoal` once the period is closed for the team with a share, too. -/
def sealedForAll : Memory := ((Command.setStatus 2 3 .closed).program.run carry sealedGoal).2

/-- The team with a share edits the goal as long as its period is not closed; after that a request to
share still changes the weight. -/
theorem worded_while_closed_sealedForAll :
    let edit : Event := .command (.updateGoal 4 (some 2) rewording)
    let share : Event := .command (.shareGoal 4 [⟨1, ⟨7, by decide⟩⟩, ⟨2, ⟨8, by decide⟩⟩])
    ∃ g, sealedGoal.Reachable ∧ sealedGoal.goals.get? 4 = some g ∧
      (sealedGoal.Throughout [edit] fun m' => m'.Sealed 4 g.team g.period) ∧
      sealedGoal.EditedByShare 4 g edit ∧
      sealedForAll.Reachable ∧ sealedForAll.goals.get? 4 = some g ∧
      (sealedForAll.Throughout [edit, share] fun m' => m'.Sealed 4 g.team g.period) ∧
      (sealedForAll.Throughout [edit, share] fun m' => ∀ team, m'.shares.contains (4, team) = true →
        m'.statusOf team g.period = .closed) ∧
      (sealedForAll.play [edit, share]).goals ≠ sealedForAll.goals ∧
      sealedForAll.Throughout [edit, share] fun m' =>
        (m'.goals.get? 4).map Goal.wording = some g.wording := by
  intro edit share
  have hget : sealedGoal.goals.get? 4 = some grow := by decide +kernel
  have hsealed : sealedGoal.Throughout [edit] fun m' => m'.Sealed 4 1 3 :=
    .cons (by decide +kernel) (.nil (by decide +kernel))
  have hedited : sealedGoal.EditedByShare 4 grow edit := by
    obtain ⟨g', hg', -, -, hcases⟩ :=
      (worded_while_closed reachable_sealedGoal hget hsealed).1 [] edit [] rfl
    have hsame : g' = grow := Option.some_inj.1 (hg'.symm.trans hget)
    subst hsame
    exact hcases.resolve_left (by decide +kernel)
  have hget' : sealedForAll.goals.get? 4 = some grow := by decide +kernel
  have hsealed' : sealedForAll.Throughout [edit, share] fun m' => m'.Sealed 4 1 3 :=
    .cons (by decide +kernel) (.cons (by decide +kernel) (.nil (by decide +kernel)))
  have hclosed : ∀ m' : Memory, m'.shares.keys = [(4, 2)] → m'.statusOf 2 3 = .closed →
      ∀ team, m'.shares.contains (4, team) = true → m'.statusOf team 3 = .closed := by
    intro m' hkeys hstatus team hshare
    rw [Table.contains_iff, ← Table.mem_keys_iff, hkeys, List.mem_singleton] at hshare
    cases hshare
    exact hstatus
  have hshares : sealedForAll.Throughout [edit, share] fun m' => ∀ team,
      m'.shares.contains (4, team) = true → m'.statusOf team 3 = .closed :=
    .cons (hclosed _ (by decide +kernel) (by decide +kernel))
      (.cons (hclosed _ (by decide +kernel) (by decide +kernel))
        (.nil (hclosed _ (by decide +kernel) (by decide +kernel))))
  have hreachable : sealedForAll.Reachable := reachable_sealedGoal.run _
  exact ⟨_, reachable_sealedGoal, hget, hsealed, hedited, hreachable, hget', hsealed', hshares,
    by decide +kernel, (worded_while_closed hreachable hget' hsealed').2 hshares⟩

end Memory

end Objectives
