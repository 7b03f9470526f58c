/- # Editing a goal for one of its teams

A goal is edited on behalf of a team.  Its texts and its classification are the same for all teams
that carry it, but every team has a weight of its own, and that of the owner stands with the goal
while that of any other team stands with its share.  An edit changes what is common to all and the
weight of the one team, wherever that weight stands.

Main definitions:

* `GoalDraft.tidied` — a draft with its texts trimmed;
* `Goal.revised`, `Memory.revised` — a goal and a store after an edit for a team;
* `Memory.Revised` — what an edit for a team changes, and what it leaves alone.

Main results:

* `GoalDraft.normalized_eq_ok` — a draft is accepted if its title is not blank;
* `Memory.run_update_own`, `Memory.run_update_shared`, `Memory.run_update_stranger` — the edit for
  the owner, for a team with a share and for any other team;
* `Memory.edit_for_team` — **an edit for a team that carries the goal changes what is common to all
  and the weight of that team; for any other team it is refused and changes nothing**.
-/

import Objectives.Proofs.Handover
import Objectives.Proofs.Written

set_option relaxedAutoImplicit false
set_option autoImplicit false

namespace Objectives

/-! ### Drafts -/

namespace GoalDraft

/-- The draft with its texts trimmed. -/
def tidied (draft : GoalDraft) : GoalDraft :=
  { draft with
    title := Text.trim draft.title
    description := Text.trim draft.description
    ownerText := Text.trim draft.ownerText }

/-- A draft is accepted if its title is not blank. -/
theorem normalized_eq_ok {draft : GoalDraft}
    (h : ∃ c ∈ draft.title.toList, Text.isBlank c = false) :
    draft.normalized = .ok draft.tidied := by
  obtain ⟨c, hc, hblank⟩ := h
  have htitle : ¬ (Text.trim draft.title).isEmpty = true := by
    intro hempty
    have hmem := Text.mem_trim hblank hc
    rw [String.isEmpty_iff.1 hempty] at hmem
    cases hmem
  exact if_neg htitle

end GoalDraft

/-- The goal after an edit for a team: the draft counts, but for the weight unless the team is the
owner. -/
def Goal.revised (g : Goal) (team : TeamId) (draft : GoalDraft) : Goal :=
  g.apply { draft.tidied with weight := if team = g.team then draft.weight else g.weight }

namespace Goal

variable (g : Goal) (team : TeamId) (draft : GoalDraft)

@[simp] theorem revised_id : (g.revised team draft).id = g.id := rfl

@[simp] theorem revised_team : (g.revised team draft).team = g.team := rfl

@[simp] theorem revised_sortOrder : (g.revised team draft).sortOrder = g.sortOrder := rfl

@[simp] theorem revised_weight : (g.revised team draft).weight =
    if team = g.team then draft.weight else g.weight := rfl

end Goal

namespace Memory

/-- The store after the edit of a goal for a team. -/
def revised (m : Memory) (g : Goal) (team : TeamId) (draft : GoalDraft) : Memory :=
  { m with
    goals := m.goals.insert g.id (g.revised team draft)
    shares := m.shares.modify (g.id, team) fun share => { share with weight := draft.weight } }

/-! ### The edit -/

section Runs

open Program (Answers)

variable {m : Memory} {id : GoalId} {g : Goal} {asTeam : Option TeamId} {draft : GoalDraft}
  (h : m.Ledger) (hget : m.goals.get? id = some g)
  (htitle : ∃ c ∈ draft.title.toList, Text.isBlank c = false)
  (hopen : m.statusOf (asTeam.getD g.team) g.period ≠ .closed)
include h hget htitle hopen

/-- What is left of an edit once the draft, the goal and the status have been seen to. -/
theorem run_update :
    (Goals.update id asTeam draft).run carry m =
      (if g.isOwnedBy (asTeam.getD g.team) then
        (Program.ask (.updateGoal id draft.tidied)).bind fun _ => .done (g.apply draft.tidied)
      else
        (Program.ask (.setTeamWeight id (asTeam.getD g.team) draft.weight)).bind fun _ =>
          (Program.ask (.updateGoal id { draft.tidied with weight := g.weight })).bind fun _ =>
            .done (g.apply { draft.tidied with weight := g.weight }) :
        Program Goal).run carry m := by
  obtain rfl := h.goalKeyed id g hget
  have hcheck : (Program.check draft.normalized).Answers m draft.tidied := by
    rw [GoalDraft.normalized_eq_ok htitle]
    exact .done _
  refine (hcheck.run_bind _).trans ?_
  refine ((requireGoal_answers hget).run_bind _).trans ?_
  have hstatus : (m.statusOf (asTeam.getD g.team) g.period).isClosed = false := by
    simpa [Status.isClosed] using hopen
  exact (requireOpen_answers hstatus .updateGoal).run_bind _

/-- The owner's edit is of the goal alone. -/
theorem run_update_own (howner : asTeam.getD g.team = g.team) :
    (Goals.update id asTeam draft).run carry m =
      (.ok (g.revised g.team draft), m.revised g g.team draft) := by
  obtain rfl := h.goalKeyed id g hget
  have hshares : m.shares.contains (g.id, g.team) = false := by
    rw [Table.contains, h.owner_unshared hget]
    rfl
  have hstore : m.revised g g.team draft =
      { m with goals := m.goals.insert g.id (g.apply draft.tidied) } := by
    rw [revised, Goal.revised, if_pos rfl, Table.modify_of_not_contains hshares]
    rfl
  rw [run_update h hget htitle hopen, if_pos (Goal.isOwnedBy_iff.2 howner), Program.run_bind,
    run_ask, hstore, Goal.revised, if_pos rfl]
  simp only [carry, updateGoal, hget]
  rfl

/-- The edit for a team with a share is of the share and of the goal, which keeps its weight. -/
theorem run_update_shared (hother : asTeam.getD g.team ≠ g.team) {share : Share}
    (hshare : m.shares.get? (id, asTeam.getD g.team) = some share) :
    (Goals.update id asTeam draft).run carry m =
      (.ok (g.revised (asTeam.getD g.team) draft), m.revised g (asTeam.getD g.team) draft) := by
  obtain rfl := h.goalKeyed id g hget
  have howner : ¬ g.isOwnedBy (asTeam.getD g.team) = true := mt Goal.isOwnedBy_iff.1 hother
  rw [run_update h hget htitle hopen, if_neg howner, Program.run_bind, run_ask, revised,
    Goal.revised, if_neg hother, Table.modify_eq_insert hshare]
  simp only [carry, setTeamWeight, hget, if_neg howner, setShareWeight, hshare]
  rw [Program.run_bind, run_ask]
  simp only [carry, updateGoal, hget]
  rfl

/-- The edit for a team that does not carry the goal fails before anything is written. -/
theorem run_update_stranger (hstranger : m.carries (asTeam.getD g.team) g = false) :
    (Goals.update id asTeam draft).run carry m =
      (.error (.notCarried id (asTeam.getD g.team)), m) := by
  obtain rfl := h.goalKeyed id g hget
  obtain ⟨howner, hshare⟩ := Bool.or_eq_false_iff.1 hstranger
  have hnone : m.shares.get? (g.id, asTeam.getD g.team) = none := by
    simpa [Table.contains] using hshare
  have howner : ¬ g.isOwnedBy (asTeam.getD g.team) = true := by simp [howner]
  rw [run_update h hget htitle hopen, if_neg howner, Program.run_bind, run_ask]
  simp only [carry, setTeamWeight, hget, if_neg howner, setShareWeight, hnone]

end Runs

/-! ### What an edit changes -/

/-- What the edit of a goal for a team changes and what it leaves alone, from the goal and the store
before it to the goal that is answered and the store after it. -/
structure Revised (m : Memory) (team : TeamId) (draft : GoalDraft) (g g' : Goal) (m' : Memory) :
    Prop where
  /-- The goal that is answered is the one that is stored. -/
  stored : m'.goals.get? g.id = some g'
  /-- Texts and classification are those of the draft, with the texts trimmed; identity, owner,
  period and key stay. -/
  goal : g' = g.apply { draft.tidied with weight := g'.weight }
  /-- The goal weighs for the team what the draft says. -/
  acting : effectiveWeight g' team (m'.listShares g.id) = draft.weight
  /-- It weighs for any other team that carries it what it did. -/
  others : ∀ t, t ≠ team → m.carries t g = true →
    effectiveWeight g' t (m'.listShares g.id) = effectiveWeight g t (m.listShares g.id)
  /-- It is listed for the same teams and under the same keys, with the new texts for all of them. -/
  listed : ∀ t, m'.listed t g' = (m.listed t g).map fun row =>
    { row with goal := g', weight := if t = team then draft.weight else row.weight }
  /-- The shares in it stay, but for the weight of the team. -/
  shares : ∀ t, m'.shares.get? (g.id, t) = (m.shares.get? (g.id, t)).map fun share =>
    { share with weight := if t = team then draft.weight else share.weight }
  otherShares : ∀ i t, i ≠ g.id → m'.shares.get? (i, t) = m.shares.get? (i, t)
  otherGoals : ∀ i, i ≠ g.id → m'.goals.get? i = m.goals.get? i
  rest : m' = { m with goals := m'.goals, shares := m'.shares }

section Effect

variable {m : Memory} {g : Goal} {team : TeamId} {draft : GoalDraft}

/-- The shares in the goal after an edit for a team. -/
theorem get?_shares_revised (m : Memory) (g : Goal) (team : TeamId) (draft : GoalDraft)
    (t : TeamId) :
    (m.revised g team draft).shares.get? (g.id, t) = (m.shares.get? (g.id, t)).map fun share =>
      { share with weight := if t = team then draft.weight else share.weight } := by
  rw [revised, Table.get?_modify]
  by_cases ht : t = team
  · simp [ht]
  · simp [ht]

/-- The weight of the goal for a team that carries it, after an edit for some team. -/
theorem weight_revised (h : m.Ledger) (hget : m.goals.get? g.id = some g)
    (h' : (m.revised g team draft).Ledger) {t : TeamId} (ht : m.carries t g = true) :
    effectiveWeight (g.revised team draft) t ((m.revised g team draft).listShares g.id) =
      if t = team then draft.weight else effectiveWeight g t (m.listShares g.id) := by
  rw [effectiveWeight_listShares h' (Table.get?_insert_self ..), effectiveWeight_listShares h hget,
    get?_shares_revised]
  cases hshare : m.shares.get? (g.id, t) with
  | some share => rfl
  | none =>
    -- without a share it is the owner, whose weight stands with the goal
    have howner : t = g.team := by
      refine (carries_iff.1 ht).resolve_right ?_
      simp [Table.contains, hshare]
    subst howner
    simp [eq_comm]

/-- The edit of a goal for a team that carries it changes what is common to all and the weight of
that team. -/
theorem Revised.of_carries (h : m.Ledger) (hget : m.goals.get? g.id = some g)
    (h' : (m.revised g team draft).Ledger) (hteam : m.carries team g = true) :
    m.Revised team draft g (g.revised team draft) (m.revised g team draft) where
  stored := Table.get?_insert_self ..
  goal := rfl
  acting := (weight_revised h hget h' hteam).trans (if_pos rfl)
  others t ht hcarries := (weight_revised h hget h' hcarries).trans (if_neg ht)
  listed t := by
    unfold Memory.listed
    rw [Goal.revised_id, get?_shares_revised]
    cases m.shares.get? (g.id, t) with
    | some share => rfl
    | none =>
      by_cases howner : t = g.team
      · subst howner
        simp [Goal.isOwnedBy, eq_comm]
      · simp [Goal.isOwnedBy, Ne.symm howner]
  shares := get?_shares_revised m g team draft
  otherShares i t hi := by
    rw [revised, Table.get?_modify, if_neg]
    simp [hi]
  otherGoals i hi := Table.get?_insert_of_ne _ _ (Ne.symm hi)
  rest := rfl

end Effect

/-- **An edit for a team**, with a title that is not blank and while the period is not closed for
the team.  If the team carries the goal, the edit succeeds: all teams have the goal with the trimmed
texts and the classification of the draft, the acting team at the weight of the draft and any other
team at the weight that it had.  If the team does not carry the goal, the edit is refused as if
there were no such goal.  Nothing else changes. -/
theorem edit_for_team {m : Memory} (h : m.Reachable) {id : GoalId} {g : Goal}
    (hget : m.goals.get? id = some g) {asTeam : Option TeamId} {draft : GoalDraft}
    (htitle : ∃ c ∈ draft.title.toList, Text.isBlank c = false)
    (hopen : m.statusOf (asTeam.getD g.team) g.period ≠ .closed) :
    (m.carries (asTeam.getD g.team) g = true → ∃ g' m',
      (Command.updateGoal id asTeam draft).program.run carry m = (.ok g', m') ∧
        m.Revised (asTeam.getD g.team) draft g g' m') ∧
    (m.carries (asTeam.getD g.team) g = false → ∃ e,
      (Command.updateGoal id asTeam draft).program.run carry m = (.error e, m) ∧
        e = .notCarried id (asTeam.getD g.team) ∧ e.code = .goalNotFound) := by
  have hm := h.sound.ledger
  refine ⟨fun hcarries => ?_, fun hstranger => ?_⟩
  · have hrun : (Goals.update id asTeam draft).run carry m =
        (.ok (g.revised (asTeam.getD g.team) draft), m.revised g (asTeam.getD g.team) draft) := by
      by_cases howner : asTeam.getD g.team = g.team
      · rw [run_update_own hm hget htitle hopen howner, howner]
      · obtain ⟨share, hshare⟩ :=
          Table.contains_iff.1 ((carries_iff.1 hcarries).resolve_left howner)
        rw [hm.goalKeyed id g hget] at hshare
        exact run_update_shared hm hget htitle hopen howner hshare
    have hm' := (h.run (.updateGoal id asTeam draft)).sound.ledger
    rw [Command.program, hrun] at hm'
    have hget' : m.goals.get? g.id = some g := (hm.goalKeyed id g hget).symm ▸ hget
    exact ⟨_, _, hrun, Revised.of_carries hm hget' hm' hcarries⟩
  · exact ⟨_, run_update_stranger hm hget htitle hopen hstranger, rfl, rfl⟩

/-- A draft that differs from the goal in its texts, its classification and its weight. -/
def faster : GoalDraft := ⟨" Grow faster ", "", .p1, ⟨32, by decide⟩, .discovery, .stability, ""⟩

/-- The team with the share edits the goal; a team that does not carry it is refused. -/
theorem edit_for_team_oneShare :
    oneShare.Reachable ∧ oneShare.goals.get? 4 = some grow ∧
      (∃ c ∈ faster.title.toList, Text.isBlank c = false) ∧
      oneShare.statusOf 2 3 ≠ .closed ∧ oneShare.statusOf 9 3 ≠ .closed ∧
      oneShare.carries 2 grow = true ∧ oneShare.carries 9 grow = false ∧
      (∃ g' m', (Command.updateGoal 4 (some 2) faster).program.run carry oneShare = (.ok g', m') ∧
        oneShare.Revised 2 faster grow g' m') ∧
      ∃ e, (Command.updateGoal 4 (some 9) faster).program.run carry oneShare =
          (.error e, oneShare) ∧
        e = .notCarried 4 9 ∧ e.code = .goalNotFound := by
  have hget : oneShare.goals.get? 4 = some grow := by decide +kernel
  have htitle : ∃ c ∈ faster.title.toList, Text.isBlank c = false := ⟨'G', by decide, by decide⟩
  have hopen : oneShare.statusOf 2 3 ≠ .closed := by decide +kernel
  have hopen' : oneShare.statusOf 9 3 ≠ .closed := by decide +kernel
  have hcarries : oneShare.carries 2 grow = true := by decide +kernel
  have hstranger : oneShare.carries 9 grow = false := by decide +kernel
  exact ⟨reachable_oneShare, hget, htitle, hopen, hopen', hcarries, hstranger,
    (@edit_for_team _ reachable_oneShare _ _ hget (some 2) _ htitle hopen).1 hcarries,
    (@edit_for_team _ reachable_oneShare _ _ hget (some 9) _ htitle hopen').2 hstranger⟩

end Memory

end Objectives
