/- # Sharing a goal among teams

A request to share names the teams that should carry a goal, each at a weight, in any order and
perhaps more than once.  The owner is settled first; the shares of teams that are not named any more
are removed, and so is that of a team that becomes the owner; the others are set one after the
other.

Main definitions:

* `Memory.reshared` — the shares after a request;
* `Memory.sharedBy` — the store after a plan has been carried out;
* `Memory.SharedAmong` — what a request changes, and what it leaves alone.

Main results:

* `Memory.get?_foldl_setShare_of_mem` — shares set one after the other;
* `Memory.get?_reshared_of_mem`, `Memory.get?_reshared_eq_none`, `Memory.get?_reshared_of_ne` — the
  shares after a request;
* `Memory.SharedAmong.of_plan`, `Memory.SharedAmong.share_again` — a request, and its repetition;
* `Memory.share_among` — **a request that is carried out leaves the goal with the teams that it
  names, each at the weight that it is named with first, and to repeat it changes nothing**.
-/

import Objectives.Proofs.Edits
import Objectives.Proofs.Candidates
import Mathlib.Data.List.Dedup

set_option relaxedAutoImplicit false
set_option autoImplicit false

namespace Objectives

namespace Memory

/-! ### Shares set one after the other -/

section SetShares

variable {goal : GoalId} {order : Int} {shares : Table (GoalId × TeamId) Share}

/-- The share of a target has its weight, and the key that it had or else that of the goal. -/
theorem get?_setShare_self (h : shares.Keyed fun s => (s.goal, s.team)) (target : ShareTarget) :
    (setShare goal order shares target).get? (goal, target.team) =
      some ⟨goal, target.team, target.weight,
        ((shares.get? (goal, target.team)).map Share.sortOrder).getD order⟩ := by
  unfold setShare
  simp only
  cases hget : shares.get? (goal, target.team) with
  | some share =>
    have hkey := h _ share hget
    rw [Prod.mk.injEq] at hkey
    obtain ⟨rfl, hteam⟩ := hkey
    rw [← hteam]
    exact Table.get?_insert_self ..
  | none => exact Table.get?_insert_self ..

/-- What is no share of a target stays. -/
theorem get?_foldl_setShare_of_ne {targets : List ShareTarget} {key : GoalId × TeamId}
    (h : ∀ target ∈ targets, key ≠ (goal, target.team)) :
    (targets.foldl (setShare goal order) shares).get? key = shares.get? key := by
  induction targets generalizing shares with
  | nil => rfl
  | cons target rest ih =>
    rw [List.foldl_cons, ih fun t ht => h t (List.mem_cons_of_mem _ ht)]
    exact get?_setShare_of_ne (h target (List.mem_cons_self ..))

/-- Of targets that name no team twice, each gets the share that it would get alone. -/
theorem get?_foldl_setShare_of_mem (h : shares.Keyed fun s => (s.goal, s.team))
    {targets : List ShareTarget} (distinct : (targets.map ShareTarget.team).Nodup)
    {target : ShareTarget} (hmem : target ∈ targets) :
    (targets.foldl (setShare goal order) shares).get? (goal, target.team) =
      some ⟨goal, target.team, target.weight,
        ((shares.get? (goal, target.team)).map Share.sortOrder).getD order⟩ := by
  induction targets generalizing shares with
  | nil => cases hmem
  | cons first rest ih =>
    rw [List.map_cons, List.nodup_cons] at distinct
    rw [List.foldl_cons]
    rcases List.mem_cons.1 hmem with rfl | hmem
    · -- none of the rest names the team again
      rw [get?_foldl_setShare_of_ne, get?_setShare_self h]
      rintro t ht heq
      rw [Prod.mk.injEq] at heq
      exact distinct.1 (heq.2 ▸ List.mem_map_of_mem ht)
    · have hne : (goal, target.team) ≠ (goal, first.team) := by
        intro heq
        rw [Prod.mk.injEq] at heq
        exact distinct.1 (heq.2 ▸ List.mem_map_of_mem hmem)
      rw [ih (setShare_keyed h first) distinct.2 hmem, get?_setShare_of_ne hne]

end SetShares

/-! ### The shares after a request -/

/-- The shares after a request that gives a share in a goal to some teams and to no other, where the
goal has a key by then. -/
def reshared (m : Memory) (id : GoalId) (targets : List ShareTarget) (order : Int) :
    Table (GoalId × TeamId) Share :=
  targets.foldl (setShare id order) (m.shares.filter fun key _ =>
    key.1 != id || targets.any fun t => t.team == key.2)

section Reshared

variable {m : Memory} {id : GoalId} {targets : List ShareTarget} {order : Int}

/-- The shares in other goals stay. -/
theorem get?_reshared_of_ne {i : GoalId} (h : i ≠ id) (team : TeamId) :
    (m.reshared id targets order).get? (i, team) = m.shares.get? (i, team) := by
  rw [reshared, get?_foldl_setShare_of_ne (fun target _ heq => h (congrArg Prod.fst heq)),
    Table.get?_filter]
  cases m.shares.get? (i, team) with
  | none => rfl
  | some share => simp [h]

/-- A team that gets no share has none. -/
theorem get?_reshared_eq_none {team : TeamId} (h : team ∉ targets.map ShareTarget.team) :
    (m.reshared id targets order).get? (id, team) = none := by
  have hother : ∀ target ∈ targets, target.team ≠ team := by
    rintro target htarget rfl
    exact h (List.mem_map_of_mem htarget)
  rw [reshared, get?_foldl_setShare_of_ne, Table.get?_filter, Option.filter_eq_none_iff]
  · intro share _
    simpa using hother
  · intro target htarget heq
    exact hother target htarget (congrArg Prod.snd heq).symm

/-- A team that gets a share has it at its weight, under the key that the share had or else under
that of the goal. -/
theorem get?_reshared_of_mem (h : m.Ledger) (distinct : (targets.map ShareTarget.team).Nodup)
    {target : ShareTarget} (hmem : target ∈ targets) :
    (m.reshared id targets order).get? (id, target.team) =
      some ⟨id, target.team, target.weight,
        ((m.shares.get? (id, target.team)).map Share.sortOrder).getD order⟩ := by
  have hnamed : (targets.any fun t => t.team == target.team) = true :=
    List.any_eq_true.2 ⟨target, hmem, beq_self_eq_true _⟩
  have hkept : (m.shares.filter fun key _ =>
      key.1 != id || targets.any fun t => t.team == key.2).get? (id, target.team) =
        m.shares.get? (id, target.team) := by
    rw [Table.get?_filter, hnamed]
    cases m.shares.get? (id, target.team) with
    | none => rfl
    | some share => simp
  rw [reshared, get?_foldl_setShare_of_mem (h.shareKeyed.filter _) distinct hmem, hkept]

/-- The teams with a share are those that are given one. -/
theorem contains_reshared_iff (h : m.Ledger) (distinct : (targets.map ShareTarget.team).Nodup)
    {team : TeamId} :
    (m.reshared id targets order).contains (id, team) = true ↔
      team ∈ targets.map ShareTarget.team := by
  constructor
  · intro hcontains
    by_contra hnot
    rw [Table.contains, get?_reshared_eq_none hnot] at hcontains
    cases hcontains
  · intro hmem
    obtain ⟨target, htarget, rfl⟩ := List.mem_map.1 hmem
    exact Table.contains_of_get? (get?_reshared_of_mem h distinct htarget)

/-- The shares in a goal are listed in the order of their teams. -/
theorem sorted_listShares (h : m.Ledger) (id : GoalId) :
    ((m.listShares id).map Share.team).Pairwise (· < ·) := by
  rw [listShares, Table.values, List.map_map, List.pairwise_map]
  have hteam : ∀ e ∈ (m.shares.filter fun key _ => key.1 == id).entries,
      e.1 = (id, e.2.team) := by
    intro e he
    have hget := Table.get?_eq_some_iff.2 he
    rw [Table.get?_filter, Option.filter_eq_some_iff] at hget
    have hkey := h.shareKeyed e.1 e.2 hget.1
    have hid : e.1.1 = id := beq_iff_eq.1 hget.2
    rw [← hkey] at hid ⊢
    rw [← hid]
  refine (m.shares.filter fun key _ => key.1 == id).sorted.imp_of_mem ?_
  intro a b ha hb hbefore
  rw [hteam a ha, hteam b hb] at hbefore
  simpa [Key.before] using hbefore

end Reshared

/-! ### What a request changes -/

/-- The store after a plan for a goal has been carried out. -/
def sharedBy (m : Memory) (g : Goal) (plan : SharePlan) (order : Int) : Memory :=
  { m with
    goals := m.goals.insert g.id (g.givenTo plan.owner order)
    shares := m.reshared g.id plan.shares order }

/-- What a request to share a goal changes and what it leaves alone, from the goal and the store
before it to the goal and the store after it. -/
structure SharedAmong (m : Memory) (targets : List ShareTarget) (g g' : Goal) (m' : Memory) :
    Prop where
  stored : m'.goals.get? g.id = some g'
  goal : g' = { g with team := g'.team, weight := g'.weight, sortOrder := g'.sortOrder }
  /-- The goal is carried by the teams that are named, each once. -/
  carriers : (g'.team :: (m'.listShares g.id).map Share.team).Perm
    (targets.map ShareTarget.team).dedup
  /-- It weighs for each of them what the team is named with first. -/
  weights : ∀ team first, (targets.find? fun t => t.team == team) = some first →
    effectiveWeight g' team (m'.listShares g.id) = first.weight
  /-- The owner keeps it if it is named; else it goes to the first team named. -/
  owner : some g'.team = if g.team ∈ targets.map ShareTarget.team then some g.team
    else targets.head?.map ShareTarget.team
  /-- For the same owner it keeps its key. -/
  kept : g'.team = g.team → g'.sortOrder = g.sortOrder
  /-- For another owner it comes after all other goals of that owner in the period. -/
  last : g'.team ≠ g.team → ∀ i other, i ≠ g.id → m'.goals.get? i = some other →
    other.team = g'.team → other.period = g.period → other.sortOrder < g'.sortOrder
  /-- A share that was there keeps its key; another takes that of the goal. -/
  keys : ∀ team share, m'.shares.get? (g.id, team) = some share →
    share.sortOrder = ((m.shares.get? (g.id, team)).map Share.sortOrder).getD g'.sortOrder
  listed : ((m'.listShares g.id).map Share.team).Pairwise (· < ·)
  otherShares : ∀ i team, i ≠ g.id → m'.shares.get? (i, team) = m.shares.get? (i, team)
  otherGoals : ∀ i, i ≠ g.id → m'.goals.get? i = m.goals.get? i
  rest : m' = { m with goals := m'.goals, shares := m'.shares }

section Effect

variable {m : Memory} {g : Goal} {targets : List ShareTarget} {plan : SharePlan} {order : Int}

/-- A replacement of shares gives the goal to the owner of the plan, under a key after its other
goals unless it has been the owner, and sets the shares. -/
theorem exists_replaceShares_eq (hget : m.goals.get? g.id = some g) (hgoal : plan.goal = g.id) :
    ∃ order, (order = if g.team = plan.owner.team then g.sortOrder
        else orderAfter (((m.goalsOwned plan.owner.team g.period).filter fun other =>
          other.id != g.id).map Goal.sortOrder)) ∧
      (m.replaceShares plan).2 = m.sharedBy g plan order := by
  obtain ⟨order, horder, hset⟩ := exists_setOwner_eq hget plan.owner
  refine ⟨order, horder, ?_⟩
  rw [replaceShares, hgoal, hset]
  rfl

/-- A goal that a team gets after all its others in the period has a greater key than those. -/
theorem lt_orderAfter_goalsOwned (h : m.Ledger) {i : GoalId} {other : Goal} (hi : i ≠ g.id)
    (hget : m.goals.get? i = some other) {team : TeamId} (hteam : other.team = team)
    (hperiod : other.period = g.period) :
    other.sortOrder < orderAfter (((m.goalsOwned team g.period).filter fun other =>
      other.id != g.id).map Goal.sortOrder) := by
  obtain rfl := h.goalKeyed i other hget
  refine lt_orderAfter (List.mem_map_of_mem (List.mem_filter.2 ⟨?_, by simpa using hi⟩))
  refine List.mem_filter.2 ⟨Table.mem_values_iff.2 ⟨_, hget⟩, ?_⟩
  simp [hteam, hperiod]

/-- The teams that carry a goal after a plan has been carried out are those of the request. -/
theorem carriers_sharedBy (h : m.Ledger) (h' : (m.sharedBy g plan order).Ledger)
    (hplan : SharePlan.resolve g.id g.team targets = .ok plan) :
    ((g.givenTo plan.owner order).team ::
      ((m.sharedBy g plan order).listShares g.id).map Share.team).Perm
        (targets.map ShareTarget.team).dedup := by
  have hstored : (m.sharedBy g plan order).goals.get? g.id = some (g.givenTo plan.owner order) :=
    Table.get?_insert_self ..
  refine (List.perm_ext_iff_of_nodup (nodup_carriers h' hstored) (List.nodup_dedup _)).2 ?_
  intro team
  have hshare : (m.sharedBy g plan order).shares.contains (g.id, team) = true ↔ _ :=
    contains_reshared_iff h (SharePlan.nodup_of_resolve hplan)
  rw [List.mem_dedup, ← SharePlan.mem_teams_of_resolve hplan, List.mem_cons, mem_map_listShares h',
    hshare]
  exact List.mem_cons.symm

/-- After a plan has been carried out the goal weighs for a team what the team is named with first.
-/
theorem weight_sharedBy (h : m.Ledger) (h' : (m.sharedBy g plan order).Ledger)
    (hplan : SharePlan.resolve g.id g.team targets = .ok plan) {team : TeamId} {first : ShareTarget}
    (hfirst : (targets.find? fun t => t.team == team) = some first) :
    effectiveWeight (g.givenTo plan.owner order) team
      ((m.sharedBy g plan order).listShares g.id) = first.weight := by
  have hteam : first.team = team := by simpa using List.find?_some hfirst
  subst hteam
  rcases SharePlan.eq_owner_or_mem_of_resolve hplan hfirst with rfl | hmem
  · exact if_pos (beq_self_eq_true _)
  · have hshare : (m.sharedBy g plan order).shares.get? (g.id, first.team) = _ :=
      get?_reshared_of_mem h (SharePlan.nodup_of_resolve hplan) hmem
    rw [effectiveWeight_listShares h' (Table.get?_insert_self ..), hshare]
    rfl

/-- The key of a share after a plan has been carried out. -/
theorem key_sharedBy (h : m.Ledger)
    (hplan : SharePlan.resolve g.id g.team targets = .ok plan) {team : TeamId} {share : Share}
    (hshare : (m.sharedBy g plan order).shares.get? (g.id, team) = some share) :
    share.sortOrder = ((m.shares.get? (g.id, team)).map Share.sortOrder).getD order := by
  have distinct := SharePlan.nodup_of_resolve hplan
  have hmem := (contains_reshared_iff h distinct).1 (Table.contains_of_get? hshare)
  obtain ⟨target, htarget, rfl⟩ := List.mem_map.1 hmem
  have hnew := hshare.symm.trans (get?_reshared_of_mem h distinct htarget)
  rw [Option.some_inj] at hnew
  rw [hnew]

end Effect

namespace SharedAmong

variable {m m' : Memory} {g g' : Goal} {targets : List ShareTarget}

/-- The plan of a request, carried out. -/
theorem of_plan (h : m.Ledger) {plan : SharePlan} (hget : m.goals.get? g.id = some g)
    (hplan : SharePlan.resolve g.id g.team targets = .ok plan) :
    ∃ g', m.SharedAmong targets g g' (m.replaceShares plan).2 := by
  have hgoal := SharePlan.goal_of_resolve hplan
  have hledger := h.replaceShares (SharePlan.owner_not_shared hplan)
  obtain ⟨order, horder, hstore⟩ := exists_replaceShares_eq hget hgoal
  rw [hstore] at hledger ⊢
  refine ⟨g.givenTo plan.owner order, ?_⟩
  constructor
  case stored => exact Table.get?_insert_self ..
  case goal => rfl
  case carriers => exact carriers_sharedBy h hledger hplan
  case weights =>
    intro team first hfirst
    exact weight_sharedBy h hledger hplan hfirst
  case owner =>
    split
    · rename_i hnamed
      exact congrArg some (SharePlan.owner_of_resolve hplan hnamed)
    · rename_i hnamed
      rw [SharePlan.head?_of_resolve hplan hnamed]
      rfl
  case kept =>
    intro hsame
    exact horder.trans (if_pos hsame.symm)
  case last =>
    intro hother i other hi hgoals hteam hperiod
    have hbefore := (Table.get?_insert_of_ne _ _ (Ne.symm hi)).symm.trans hgoals
    have hkey : order = _ := horder.trans (if_neg (Ne.symm hother))
    show other.sortOrder < order
    rw [hkey]
    exact lt_orderAfter_goalsOwned h hi hbefore hteam hperiod
  case keys =>
    intro team share hshare
    exact key_sharedBy h hplan hshare
  case listed => exact sorted_listShares hledger g.id
  case otherShares =>
    intro i team hi
    exact get?_reshared_of_ne hi team
  case otherGoals =>
    intro i hi
    exact Table.get?_insert_of_ne _ _ (Ne.symm hi)
  case rest => rfl

/-- The request made once more changes nothing. -/
theorem share_again (h : m.SharedAmong targets g g' m') (hm' : m'.Sound) :
    ∃ outcome, (Goals.share g.id targets).run carry m' = (.ok outcome, m') := by
  have hid : g'.id = g.id := hm'.ledger.goalKeyed _ g' h.stored
  refine share_same_first hm' h.stored ?_ ?_
  · intro team
    rw [← mem_carriers_iff hm'.ledger, hid, h.carriers.mem_iff, List.mem_dedup]
  · intro t ht
    exact (h.weights t.team t (find?_of_mem_distinctBy ht)).symm

end SharedAmong

/-- **A request to share that is carried out** leaves the goal with the teams that it names, each at
the weight that it is named with first.  The owner keeps the goal in its place if it is named; else
the first team named gets it after all its others.  A share that was there keeps its key and a new
one takes that of the goal.  Nothing else changes, and to make the request once more changes nothing
at all. -/
theorem share_among {m m' : Memory} (h : m.Reachable) {id : GoalId} {g : Goal}
    (hget : m.goals.get? id = some g) {targets : List ShareTarget} {outcome : GoalShared}
    (hrun : (Command.shareGoal id targets).program.run carry m = (.ok outcome, m')) :
    (∃ g', m.SharedAmong targets g g' m') ∧
      ∃ again, (Command.shareGoal id targets).program.run carry m' = (.ok again, m') := by
  have hm := h.sound.ledger
  obtain rfl := hm.goalKeyed id g hget
  -- a request that is carried out names teams, and only such as may carry the goal
  have haccepted : targets ≠ [] ∧ ∀ t ∈ targets, m.mayCarry g t.team = true := by
    by_contra hnot
    obtain ⟨e, herror, -⟩ := share_refuses hm hget (not_accepted_iff.1 hnot)
    have hboth := hrun.symm.trans herror
    cases hboth
  obtain ⟨plan, hplan⟩ := SharePlan.exists_resolve g.id g.team haccepted.1
  have hstore := congrArg Prod.snd (hrun.symm.trans (share_accepts hm hget hplan haccepted.2))
  have hm' : m'.Sound := by
    have hafter := (h.run (.shareGoal g.id targets)).sound
    rwa [hrun] at hafter
  obtain ⟨g', hshared⟩ := SharedAmong.of_plan hm hget hplan
  rw [← hstore] at hshared
  exact ⟨⟨g', hshared⟩, hshared.share_again hm'⟩

/-- A store with a third team, and with a goal of the team that has a share in another. -/
def busySharer : Memory :=
  let draft : GoalDraft := ⟨"Index", "", .p2, ⟨13, by decide⟩, .delivery, .stability, ""⟩
  ((Command.createGoal 2 3 draft).program.run carry
    (oneShare.addTeam "Support" .team (some 1)).2).2

/-- A request that names the team with the share twice, and the owner not at all. -/
def turnover : List ShareTarget :=
  [⟨2, ⟨26, by decide⟩⟩, ⟨5, ⟨11, by decide⟩⟩, ⟨2, ⟨51, by decide⟩⟩]

/-- The goal goes to the team that is named first, after the one that it has, and the share becomes
one of the third team. -/
theorem share_among_turnover :
    ∃ outcome m', busySharer.Reachable ∧ busySharer.goals.get? 4 = some grow ∧
      (Command.shareGoal 4 turnover).program.run carry busySharer = (.ok outcome, m') ∧
      (∃ g', busySharer.SharedAmong turnover grow g' m') ∧
      (∃ again, (Command.shareGoal 4 turnover).program.run carry m' = (.ok again, m')) ∧
      (m'.goals.values.map fun g => (g.id, g.team, g.weight.value, g.sortOrder)) =
        [(4, 2, 26, 2), (6, 2, 13, 1)] ∧
      (m'.shares.values.map fun s => (s.goal, s.team, s.weight.value, s.sortOrder)) =
        [(4, 5, 11, 2)] := by
  have hreachable : busySharer.Reachable := (reachable_oneShare.addTeam _ _ _).run _
  have hget : busySharer.goals.get? 4 = some grow := by decide +kernel
  have hrun : (Command.shareGoal 4 turnover).program.run carry busySharer =
      (.ok ⟨⟨4, ⟨2, ⟨26, by decide⟩⟩, [⟨5, ⟨11, by decide⟩⟩]⟩, true⟩, _) :=
    Prod.ext (by decide +kernel) rfl
  obtain ⟨hshared, hagain⟩ := share_among hreachable hget hrun
  exact ⟨_, _, hreachable, hget, hrun, hshared, hagain, by decide +kernel, by decide +kernel⟩

end Memory

end Objectives
