/- # Owners and shares

The owner of a goal stands with the goal, every other team that carries it in a table of shares.
Shares are replaced, handed over and given up by calls that act on what was read before them;
whatever has happened in between, the two tables fit each other.

Main definitions:

* `Memory.Ledger` — owners and shares fit each other;
* `Memory.PlansResolved` — a run in which shares are replaced by plans made of requests;
* `Memory.carries` — whether a team carries a goal;
* `Memory.SharesSound` — what can be relied on when goals are listed for a team.

Main results:

* `Memory.Ledger.carry` — a call keeps owners and shares fitting each other;
* `Memory.find?_listShares` — the shares of a goal, listed, hold what the table holds;
* `Memory.goals_goalsOf_perm` — the list of a team holds the goals that the team carries;
* `Memory.sharesSound_after` — **after any such run no owner has a share, shares are of goals that
  exist, and a goal weighs the same in a list as by its owner and shares**.
-/

import Objectives.Proofs.Subject
import Objectives.Proofs.Table

set_option relaxedAutoImplicit false
set_option autoImplicit false

namespace Objectives

/-! ### Plans -/

/-- The plan of a request: the owner is the present one if it is named, else the first team named, and
each other team that is named has a share. -/
theorem SharePlan.exists_of_resolve {goal : GoalId} {owner : TeamId} {targets : List ShareTarget}
    {plan : SharePlan} (h : resolve goal owner targets = .ok plan) :
    ∃ next, ((distinctBy ShareTarget.team targets).find? fun t => t.team == owner).or
        (distinctBy ShareTarget.team targets).head? = some next ∧
      plan = ⟨goal, next,
        (distinctBy ShareTarget.team targets).filter fun t => t.team != next.team⟩ := by
  unfold resolve at h
  simp only at h
  split at h
  · cases h
  · rename_i next hnext
    cases h
    exact ⟨next, hnext, rfl⟩

/-- In the plan of a request the owner is none of the teams with a share. -/
theorem SharePlan.owner_not_shared {goal : GoalId} {owner : TeamId} {targets : List ShareTarget}
    {plan : SharePlan} (h : resolve goal owner targets = .ok plan) :
    ∀ s ∈ plan.shares, s.team ≠ plan.owner.team := by
  obtain ⟨next, -, rfl⟩ := exists_of_resolve h
  intro s hs
  simpa using (List.mem_filter.1 hs).2

/-- The plan of a replacement gives the owner no share. -/
def Call.Orderly : Call → Prop
  | .replaceShares plan => ∀ s ∈ plan.shares, s.team ≠ plan.owner.team
  | _ => True

namespace Memory

/-! ### Setting shares -/

section SetShares

variable {goal : GoalId} {order : Int}

/-- A share that is set is stored under its goal and its team. -/
theorem setShare_keyed {shares : Table (GoalId × TeamId) Share}
    (h : shares.Keyed fun s => (s.goal, s.team)) (target : ShareTarget) :
    (setShare goal order shares target).Keyed fun s => (s.goal, s.team) := by
  unfold setShare
  simp only
  split
  · rename_i share hget
    exact h.insert (h _ share hget)
  · exact h.insert rfl

theorem foldl_setShare_keyed (targets : List ShareTarget)
    {shares : Table (GoalId × TeamId) Share} (h : shares.Keyed fun s => (s.goal, s.team)) :
    (targets.foldl (setShare goal order) shares).Keyed fun s => (s.goal, s.team) := by
  induction targets generalizing shares with
  | nil => exact h
  | cons target rest ih => exact ih (setShare_keyed h target)

/-- Setting a share leaves the others. -/
theorem get?_setShare_of_ne {shares : Table (GoalId × TeamId) Share} {target : ShareTarget}
    {k : GoalId × TeamId} (h : k ≠ (goal, target.team)) :
    (setShare goal order shares target).get? k = shares.get? k := by
  unfold setShare
  simp only
  split
  · exact Table.get?_insert_of_ne _ _ (Ne.symm h)
  · exact Table.get?_insert_of_ne _ _ (Ne.symm h)

/-- Setting a share adds at most that of the target. -/
theorem contains_setShare {shares : Table (GoalId × TeamId) Share} {target : ShareTarget}
    {k : GoalId × TeamId} (h : (setShare goal order shares target).contains k = true) :
    k = (goal, target.team) ∨ shares.contains k = true := by
  by_cases hk : k = (goal, target.team)
  · exact .inl hk
  · rw [Table.contains, get?_setShare_of_ne hk] at h
    exact .inr h

/-- Setting shares adds at most those of the targets. -/
theorem contains_foldl_setShare {targets : List ShareTarget}
    {shares : Table (GoalId × TeamId) Share} {k : GoalId × TeamId}
    (h : (targets.foldl (setShare goal order) shares).contains k = true) :
    (k.1 = goal ∧ ∃ target ∈ targets, target.team = k.2) ∨ shares.contains k = true := by
  induction targets generalizing shares with
  | nil => exact .inr h
  | cons target rest ih =>
    rcases ih h with ⟨hgoal, t, ht, hteam⟩ | h
    · exact .inl ⟨hgoal, t, List.mem_cons_of_mem _ ht, hteam⟩
    · rcases contains_setShare h with rfl | h
      · exact .inl ⟨rfl, target, List.mem_cons_self .., rfl⟩
      · exact .inr h

end SetShares

/-! ### The invariant -/

/-- Goals and shares are stored under their own keys, goals under identifiers that were given, and a
share is one of a goal that exists and that another team owns. -/
structure Ledger (m : Memory) : Prop where
  goalKeyed : m.goals.Keyed Goal.id
  given : ∀ id g, m.goals.get? id = some g → id ≤ m.lastId
  shareKeyed : m.shares.Keyed fun s => (s.goal, s.team)
  shared : ∀ id team, m.shares.contains (id, team) = true →
    ∃ g, m.goals.get? id = some g ∧ g.team ≠ team

namespace Ledger

variable {m m' : Memory}

theorem empty : Memory.empty.Ledger where
  goalKeyed := Table.Keyed.empty
  given id g h := by cases h
  shareKeyed := Table.Keyed.empty
  shared id team h := by cases h

/-- The owner of a goal has no share in it. -/
theorem owner_unshared (h : m.Ledger) {id : GoalId} {g : Goal} (hget : m.goals.get? id = some g) :
    m.shares.get? (id, g.team) = none := by
  cases hs : m.shares.get? (id, g.team) with
  | none => rfl
  | some s =>
    obtain ⟨g', hg', hne⟩ := h.shared id g.team (Table.contains_of_get? hs)
    rw [hget, Option.some_inj] at hg'
    exact absurd (congrArg Goal.team hg').symm hne

/-- A change that keeps the owners and adds no share. -/
theorem of_owners (h : m.Ledger) (goalKeyed : m'.goals.Keyed Goal.id)
    (given : ∀ id g, m'.goals.get? id = some g → id ≤ m'.lastId)
    (owners : ∀ id g, m.goals.get? id = some g → ∃ g', m'.goals.get? id = some g' ∧
      g'.team = g.team)
    (shareKeyed : m'.shares.Keyed fun s => (s.goal, s.team))
    (shares : ∀ k, m'.shares.contains k = true → m.shares.contains k = true) : m'.Ledger where
  goalKeyed := goalKeyed
  given := given
  shareKeyed := shareKeyed
  shared id team hs := by
    obtain ⟨g, hg, hne⟩ := h.shared id team (shares _ hs)
    obtain ⟨g', hg', hteam⟩ := owners id g hg
    exact ⟨g', hg', hteam ▸ hne⟩

/-- A change of other tables. -/
theorem of_eq (h : m.Ledger) (hgoals : m'.goals = m.goals) (hshares : m'.shares = m.shares)
    (hlast : m.lastId ≤ m'.lastId) : m'.Ledger := by
  refine h.of_owners (hgoals ▸ h.goalKeyed) ?_ ?_ (hshares ▸ h.shareKeyed) ?_
  · intro id g hg
    rw [hgoals] at hg
    exact Int.le_trans (h.given id g hg) hlast
  · intro id g hg
    exact ⟨g, hgoals ▸ hg, rfl⟩
  · intro k hk
    rwa [hshares] at hk

/-- A goal that takes the place of one with the same owner. -/
theorem editGoal (h : m.Ledger) {id : GoalId} {g g' : Goal} (hget : m.goals.get? id = some g)
    (hid : g'.id = g.id) (hteam : g'.team = g.team) :
    { m with goals := m.goals.insert id g' }.Ledger := by
  have hkey : g'.id = id := hid.trans (h.goalKeyed id g hget)
  refine h.of_owners (h.goalKeyed.insert hkey) ?_ ?_ h.shareKeyed fun _ hk => hk
  · intro i b hb
    rw [Table.get?_insert] at hb
    by_cases hi : id = i
    · exact hi ▸ h.given id g hget
    · rw [if_neg hi] at hb
      exact h.given i b hb
  · intro i b hb
    by_cases hi : id = i
    · subst hi
      rw [hget, Option.some_inj] at hb
      exact ⟨g', Table.get?_insert_self .., hb ▸ hteam⟩
    · exact ⟨b, by rw [Table.get?_insert_of_ne _ _ hi, hb], rfl⟩

/-! ### The calls, one by one -/

theorem createGoal (h : m.Ledger) (team : TeamId) (period : PeriodId) (draft : GoalDraft) :
    (m.createGoal team period draft).2.Ledger := by
  have hnew : ∀ id g, m.goals.get? id = some g → m.lastId + 1 ≠ id := by
    intro id g hg
    exact (Int.ne_of_lt (Int.lt_add_one_of_le (h.given id g hg))).symm
  refine h.of_owners (h.goalKeyed.insert rfl) ?_ ?_ h.shareKeyed fun _ hk => hk
  · intro i b hb
    show i ≤ m.lastId + 1
    simp only [Memory.createGoal, takeId, Table.get?_insert] at hb
    split at hb
    · rename_i hi
      exact hi ▸ Int.le_refl _
    · exact Int.le_add_one (h.given i b hb)
  · intro i b hb
    exact ⟨b, by rw [← hb]; exact Table.get?_insert_of_ne _ _ (hnew i b hb), rfl⟩

theorem updateGoal (h : m.Ledger) (id : GoalId) (draft : GoalDraft) :
    (m.updateGoal id draft).2.Ledger := by
  unfold Memory.updateGoal
  split
  · exact h
  · rename_i goal hget
    exact h.editGoal hget rfl rfl

/-- All shares of a deleted goal go with it. -/
theorem deleteGoal (h : m.Ledger) (id : GoalId) : (m.deleteGoal id).2.Ledger := by
  unfold Memory.deleteGoal
  split
  · refine ⟨h.goalKeyed.filter _, ?_, h.shareKeyed.filter _, ?_⟩
    · intro i g hg
      rw [Table.get?_erase] at hg
      split at hg
      · cases hg
      · exact h.given i g hg
    · -- a share that is left is one of another goal
      intro i team hs
      obtain ⟨s, hs, hkept⟩ := Table.contains_filter_iff.1 hs
      obtain ⟨g, hg, hne⟩ := h.shared i team (Table.contains_of_get? hs)
      have hi : i ≠ id := by simpa using hkept
      exact ⟨g, by rw [Table.get?_erase_of_ne _ hi, hg], hne⟩
  · exact h

/-- A goal that goes to an owner, when no share of the owner in it is left and none is added in
another goal. -/
theorem handOver (h : m.Ledger) {id : GoalId} {g g' : Goal} (hget : m.goals.get? id = some g)
    (hid : g'.id = g.id) {shares : Table (GoalId × TeamId) Share}
    (shareKeyed : shares.Keyed fun s => (s.goal, s.team))
    (own : shares.contains (id, g'.team) = false)
    (others : ∀ i team, i ≠ id → shares.contains (i, team) = true →
      m.shares.contains (i, team) = true) :
    { m with goals := m.goals.insert id g', shares }.Ledger where
  goalKeyed := h.goalKeyed.insert (hid.trans (h.goalKeyed id g hget))
  given i b hb := by
    rw [Table.get?_insert] at hb
    by_cases hi : id = i
    · exact hi ▸ h.given id g hget
    · rw [if_neg hi] at hb
      exact h.given i b hb
  shareKeyed := shareKeyed
  shared i team hs := by
    by_cases hi : id = i
    · subst hi
      refine ⟨g', Table.get?_insert_self .., ?_⟩
      rintro rfl
      rw [own] at hs
      cases hs
    · obtain ⟨b, hb, hne⟩ := h.shared i team (others i team (Ne.symm hi) hs)
      exact ⟨b, by rw [Table.get?_insert_of_ne _ _ hi, hb], hne⟩

/-- A replacement of shares drops the share of the new owner with all that the plan does not name. -/
theorem replaceShares (h : m.Ledger) {plan : SharePlan}
    (hplan : ∀ s ∈ plan.shares, s.team ≠ plan.owner.team) : (m.replaceShares plan).2.Ledger := by
  unfold Memory.replaceShares
  rcases m.setOwner_cases plan.goal plan.owner with
    ⟨-, hset⟩ | ⟨goal, goal', order, hget, hgoal', -, hset⟩
  · rw [hset]
    exact h
  · rw [hset]
    have hid : goal'.id = goal.id := by rw [hgoal']
    have hteam : goal'.team = plan.owner.team := by rw [hgoal']
    refine h.handOver hget hid ?_ ?_ ?_
    · exact foldl_setShare_keyed plan.shares (h.shareKeyed.filter _)
    · -- the owner has no share that is kept, and none is set
      rw [Bool.eq_false_iff]
      intro hs
      rcases contains_foldl_setShare hs with ⟨-, s, hmem, hs⟩ | hs
      · exact hplan s hmem (hs.trans hteam)
      · obtain ⟨_, -, hkept⟩ := Table.contains_filter_iff.1 hs
        obtain ⟨s, hmem, hs⟩ : ∃ s ∈ plan.shares, s.team = goal'.team := by simpa using hkept
        exact hplan s hmem (hs.trans hteam)
    · intro i team hi hs
      rcases contains_foldl_setShare hs with ⟨hgoal, -⟩ | hs
      · exact absurd hgoal hi
      · exact Table.contains_of_filter hs

/-- A promotion drops the share that is promoted, however old it is. -/
theorem promote (h : m.Ledger) (share : Share) : (m.promote share).2.Ledger := by
  unfold Memory.promote
  rcases m.setOwner_cases share.goal ⟨share.team, share.weight⟩ with
    ⟨-, hset⟩ | ⟨goal, goal', order, hget, hgoal', -, hset⟩
  · rw [hset]
    exact h
  · rw [hset]
    have hid : goal'.id = goal.id := by rw [hgoal']
    have hteam : goal'.team = share.team := by rw [hgoal']
    refine h.handOver hget hid (h.shareKeyed.filter _) ?_ ?_
    · simp [Table.contains, hteam]
    · intro i team _ hs
      exact Table.contains_of_filter hs

theorem removeShare (h : m.Ledger) (goal : GoalId) (team : TeamId) :
    (m.removeShare goal team).Ledger := by
  refine h.of_owners h.goalKeyed h.given ?_ (h.shareKeyed.filter _) ?_
  · intro id g hg
    exact ⟨g, hg, rfl⟩
  · intro k hk
    exact Table.contains_of_filter hk

theorem setShareWeight (h : m.Ledger) (goal : GoalId) (team : TeamId) (weight : Weight) :
    (m.setShareWeight goal team weight).2.Ledger := by
  unfold Memory.setShareWeight
  split
  · rename_i share hget
    refine h.of_owners h.goalKeyed h.given ?_ (h.shareKeyed.insert (h.shareKeyed _ share hget)) ?_
    · intro id g hg
      exact ⟨g, hg, rfl⟩
    · intro k hk
      by_cases hkey : (goal, team) = k
      · exact hkey ▸ Table.contains_of_get? hget
      · rwa [Table.contains, Table.get?_insert_of_ne _ _ hkey] at hk
  · exact h

theorem setTeamWeight (h : m.Ledger) (id : GoalId) (team : TeamId) (weight : Weight) :
    (m.setTeamWeight id team weight).2.Ledger := by
  unfold Memory.setTeamWeight
  split
  · rename_i goal hget
    split
    · exact h.editGoal hget rfl rfl
    · exact h.setShareWeight id team weight
  · exact h.setShareWeight id team weight

theorem modifyGoal (h : m.Ledger) (id : GoalId) {f : Goal → Goal} (hid : ∀ g, (f g).id = g.id)
    (hteam : ∀ g, (f g).team = g.team) : { m with goals := m.goals.modify id f }.Ledger := by
  refine h.of_owners (h.goalKeyed.modify hid id) ?_ ?_ h.shareKeyed fun _ hk => hk
  · intro i g hg
    have hi := Table.contains_of_get? hg
    rw [Table.contains_modify] at hi
    obtain ⟨g', hg'⟩ := Table.contains_iff.1 hi
    exact h.given i g' hg'
  · intro i g hg
    rw [Table.get?_modify, hg]
    by_cases hi : i = id
    · exact ⟨f g, by rw [if_pos hi, Option.map_some], hteam g⟩
    · exact ⟨g, by rw [if_neg hi], rfl⟩

/-- Order keys can be set as one likes. -/
theorem setOrders (h : m.Ledger) {set : Int → Goal → Goal} (hid : ∀ order g, (set order g).id = g.id)
    (hteam : ∀ order g, (set order g).team = g.team) (changes : List (Int × Int)) :
    { m with goals := Memory.setOrders set m.goals changes }.Ledger := by
  induction changes generalizing m with
  | nil => exact h
  | cons change rest ih =>
    exact ih (h.modifyGoal change.1 (hid change.2) (hteam change.2))

theorem moveGoal (h : m.Ledger) (id : GoalId) (asTeam : Option TeamId) (direction : Direction) :
    (m.move (.goal id asTeam) direction).2.Ledger := by
  unfold Memory.move
  simp only
  split
  · exact h
  · split
    · exact h
    · refine h.setOrders ?_ ?_ _
      · intro order g
        rfl
      · intro order g
        rfl

/-- A call keeps owners and shares fitting each other; all that is asked of it is that a plan gives
the owner no share. -/
theorem carry (h : m.Ledger) {c : Call} (hc : c.Orderly) : (Memory.carry c m).2.Ledger := by
  by_cases hs : c.subject = .goals ∨ c.subject = .wholeGoal
  · cases c with
    | createGoal team period draft => exact h.createGoal team period draft
    | updateGoal id draft => exact h.updateGoal id draft
    | deleteGoal id => exact h.deleteGoal id
    | replaceShares plan => exact h.replaceShares hc
    | removeShare goal team => exact h.removeShare goal team
    | promote share => exact h.promote share
    | setTeamWeight goal team weight => exact h.setTeamWeight goal team weight
    | move item direction =>
      cases item with
      | goal id asTeam => exact h.moveGoal id asTeam direction
      | keyResult id => rcases hs with hs | hs <;> cases hs
      | period id => rcases hs with hs | hs <;> cases hs
    | _ => rcases hs with hs | hs <;> cases hs
  · -- any other call leaves both tables as they are
    rw [not_or] at hs
    have htouched := touched_carry c m
    obtain ⟨hgoals, hshares⟩ := htouched.goals_shares hs.1 hs.2
    exact h.of_eq hgoals hshares htouched.lastId_le

end Ledger

/-! ### Lists of shares and of goals -/

section Lists

variable {m : Memory}

/-- The shares of a goal, listed, are those of the table. -/
theorem mem_listShares (h : m.Ledger) {id : GoalId} {s : Share} :
    s ∈ m.listShares id ↔ m.shares.get? (id, s.team) = some s := by
  rw [listShares, Table.mem_values_iff]
  constructor
  · rintro ⟨k, hk⟩
    rw [Table.get?_filter, Option.filter_eq_some_iff] at hk
    have hkey := h.shareKeyed k s hk.1
    have hid : k.1 = id := by simpa using hk.2
    rw [← hkey] at hid
    rw [← hid]
    simpa [hkey] using hk.1
  · intro hget
    refine ⟨(id, s.team), ?_⟩
    rw [Table.get?_filter, hget]
    simp

/-- No team is listed twice with a goal. -/
theorem nodup_listShares (h : m.Ledger) (id : GoalId) :
    ((m.listShares id).map Share.team).Nodup := by
  refine List.Nodup.map_on ?_ (h.shareKeyed.filter _).nodup_values
  intro s hs s' hs' hteam
  have hget := (mem_listShares h).1 hs
  rw [hteam, (mem_listShares h).1 hs', Option.some_inj] at hget
  exact hget.symm

/-- The teams with a share in a goal are those of the listed shares. -/
theorem mem_map_listShares (h : m.Ledger) {id : GoalId} {team : TeamId} :
    team ∈ (m.listShares id).map Share.team ↔ m.shares.contains (id, team) = true := by
  rw [List.mem_map, Table.contains_iff]
  constructor
  · rintro ⟨s, hs, rfl⟩
    exact ⟨s, (mem_listShares h).1 hs⟩
  · rintro ⟨s, hget⟩
    have hteam : s.team = team := congrArg Prod.snd (h.shareKeyed _ s hget)
    subst hteam
    exact ⟨s, (mem_listShares h).2 hget, rfl⟩

/-- The owner of a goal and the teams with a share, none of them twice. -/
theorem nodup_carriers (h : m.Ledger) {id : GoalId} {g : Goal} (hget : m.goals.get? id = some g) :
    (g.team :: (m.listShares id).map Share.team).Nodup := by
  refine List.nodup_cons.2 ⟨?_, nodup_listShares h id⟩
  intro hmem
  obtain ⟨s, hs⟩ := Table.contains_iff.1 ((mem_map_listShares h).1 hmem)
  rw [h.owner_unshared hget] at hs
  cases hs

/-- The shares of a goal, listed, hold for each team what the table holds. -/
theorem find?_listShares (h : m.Ledger) (id : GoalId) (team : TeamId) :
    ((m.listShares id).find? fun s => s.team == team) = m.shares.get? (id, team) := by
  cases hfind : (m.listShares id).find? fun s => s.team == team with
  | some s =>
    have hteam : s.team = team := by simpa using List.find?_some hfind
    rw [← hteam]
    exact ((mem_listShares h).1 (List.mem_of_find?_eq_some hfind)).symm
  | none =>
    cases hget : m.shares.get? (id, team) with
    | none => rfl
    | some s =>
      have hteam : s.team = team := congrArg Prod.snd (h.shareKeyed _ s hget)
      have hmem : s ∈ m.listShares id := (mem_listShares h).2 (hteam.symm ▸ hget)
      have := List.find?_eq_none.1 hfind s hmem
      simp [hteam] at this

/-- The weight of a goal for a team, read off the listed shares: that of the share, if the team has
one. -/
theorem effectiveWeight_listShares (h : m.Ledger) {id : GoalId} {g : Goal}
    (hget : m.goals.get? id = some g) (team : TeamId) :
    effectiveWeight g team (m.listShares id) =
      ((m.shares.get? (id, team)).map Share.weight).getD g.weight := by
  unfold effectiveWeight
  by_cases howner : g.team = team
  · rw [← howner, h.owner_unshared hget]
    simp [Goal.isOwnedBy]
  · rw [find?_listShares h]
    simp only [Goal.isOwnedBy, beq_iff_eq, howner, if_false]
    cases m.shares.get? (id, team) <;> rfl

/-- Whether a team carries a goal, as its owner or with a share. -/
def carries (m : Memory) (team : TeamId) (g : Goal) : Bool :=
  g.isOwnedBy team || m.shares.contains (g.id, team)

/-- The goal stands in the list of the teams that carry it. -/
theorem isSome_listed (m : Memory) (team : TeamId) (g : Goal) :
    (m.listed team g).isSome = m.carries team g := by
  unfold listed carries Table.contains
  cases m.shares.get? (g.id, team) with
  | some share => simp
  | none => cases g.isOwnedBy team <;> rfl

theorem goal_of_listed {team : TeamId} {g : Goal} {entry : TeamGoal}
    (h : m.listed team g = some entry) : entry.team = team ∧ entry.goal = g := by
  unfold listed at h
  split at h
  · cases h
    exact ⟨rfl, rfl⟩
  · split at h
    · cases h
      exact ⟨rfl, rfl⟩
    · cases h

/-- A list holds the goals that the team carries, in the order in which they were looked through. -/
theorem goals_filterMap_listed (team : TeamId) (goals : List Goal) :
    (goals.filterMap (m.listed team)).map TeamGoal.goal = goals.filter (m.carries team) := by
  induction goals with
  | nil => rfl
  | cons g rest ih =>
    have hsome := m.isSome_listed team g
    cases hlisted : m.listed team g with
    | none =>
      rw [hlisted, Option.isSome_none] at hsome
      rw [List.filterMap_cons_none hlisted, List.filter_cons_of_neg (by simp [← hsome]), ih]
    | some entry =>
      rw [hlisted, Option.isSome_some] at hsome
      rw [List.filterMap_cons_some hlisted, List.filter_cons_of_pos hsome.symm, List.map_cons, ih,
        (goal_of_listed hlisted).2]

/-- The list of a team holds the goals of the period that the team carries, each as often as it is
stored. -/
theorem goals_goalsOf_perm (m : Memory) (team : TeamId) (period : PeriodId) :
    ((m.goalsOf team period).map TeamGoal.goal).Perm
      (m.goals.values.filter fun g => g.period == period && m.carries team g) := by
  refine ((sortBy_perm _ _).map _).trans ?_
  rw [goals_filterMap_listed, List.filter_filter]
  refine List.Perm.of_eq (List.filter_congr ?_)
  intro g _
  exact Bool.and_comm ..

/-- No goal stands twice in a list. -/
theorem nodup_goalsOf (h : m.Ledger) (team : TeamId) (period : PeriodId) :
    ((m.goalsOf team period).map fun entry => entry.goal.id).Nodup := by
  have hperm := (m.goals_goalsOf_perm team period).map Goal.id
  rw [List.map_map] at hperm
  refine hperm.nodup_iff.2 ?_
  refine List.Nodup.sublist (List.filter_sublist.map Goal.id) ?_
  rw [h.goalKeyed.map_values]
  exact m.goals.nodup_keys

/-- What stands in the list of a team is a stored goal, as it is listed for the team. -/
theorem get?_of_mem_goalsOf (h : m.Ledger) {team : TeamId} {period : PeriodId} {entry : TeamGoal}
    (hmem : entry ∈ m.goalsOf team period) :
    m.goals.get? entry.goal.id = some entry.goal ∧ m.listed team entry.goal = some entry := by
  rw [goalsOf, mem_sortBy, List.mem_filterMap] at hmem
  obtain ⟨g, hg, hlisted⟩ := hmem
  obtain ⟨-, rfl⟩ := goal_of_listed hlisted
  exact ⟨h.goalKeyed.get?_of_mem (List.mem_filter.1 hg).1, hlisted⟩

/-- In the list of a team a goal has the weight of the share, if the team has one. -/
theorem weight_of_mem_goalsOf (h : m.Ledger) {team : TeamId} {period : PeriodId} {entry : TeamGoal}
    (hmem : entry ∈ m.goalsOf team period) :
    entry.weight =
      ((m.shares.get? (entry.goal.id, team)).map Share.weight).getD entry.goal.weight := by
  obtain ⟨-, hlisted⟩ := get?_of_mem_goalsOf h hmem
  generalize entry.goal = g at hlisted ⊢
  unfold listed at hlisted
  split at hlisted
  · rename_i share hshare
    cases hlisted
    rw [hshare]
    rfl
  · rename_i hshare
    split at hlisted
    · cases hlisted
      rw [hshare]
      rfl
    · cases hlisted

/-- In the list of a team a goal weighs what it weighs by its owner and shares. -/
theorem weight_eq_effectiveWeight (h : m.Ledger) {team : TeamId} {period : PeriodId}
    {entry : TeamGoal} (hmem : entry ∈ m.goalsOf team period) :
    entry.weight = effectiveWeight entry.goal team (m.listShares entry.goal.id) := by
  rw [effectiveWeight_listShares h (get?_of_mem_goalsOf h hmem).1]
  exact weight_of_mem_goalsOf h hmem

end Lists

/-! ### Runs of calls -/

/-- A run in which every replacement of shares follows the plan of a request, whatever owner the
client has read before. -/
def PlansResolved (calls : List Call) : Prop :=
  ∀ plan, .replaceShares plan ∈ calls →
    ∃ owner targets, SharePlan.resolve plan.goal owner targets = .ok plan

/-- Owners and shares fit each other after a run. -/
theorem Ledger.after {m : Memory} (h : m.Ledger) {calls : List Call}
    (hcalls : ∀ c ∈ calls, c.Orderly) : (m.after calls).Ledger :=
  after_keeps (fun c hc _ hm => hm.carry (hcalls c hc)) h

/-- What can be relied on when the shares of a goal and the goals of a team are listed. -/
structure SharesSound (m : Memory) : Prop where
  /-- The owner of a goal has no share in it. -/
  owner_unshared : ∀ id g, m.goals.get? id = some g → m.shares.get? (id, g.team) = none
  /-- A share is stored under its own goal and team, and the goal exists. -/
  own_key : ∀ k s, m.shares.get? k = some s →
    (s.goal, s.team) = k ∧ ∃ g, m.goals.get? s.goal = some g ∧ g.id = s.goal
  /-- No team carries a goal twice. -/
  carried_once : ∀ id g, m.goals.get? id = some g →
    (g.team :: (m.listShares id).map Share.team).Nodup
  /-- No goal stands twice in the list of a team. -/
  listed_once : ∀ team period, ((m.goalsOf team period).map fun entry => entry.goal.id).Nodup
  /-- A list shows the weight that follows from the owner and the shares. -/
  listed_weight : ∀ team period, ∀ entry ∈ m.goalsOf team period,
    entry.weight = effectiveWeight entry.goal team (m.listShares entry.goal.id)

theorem Ledger.sharesSound {m : Memory} (h : m.Ledger) : m.SharesSound where
  owner_unshared _ _ hget := h.owner_unshared hget
  own_key k s hs := by
    have hkey := h.shareKeyed k s hs
    obtain ⟨g, hg, -⟩ := h.shared s.goal s.team (Table.contains_of_get? (hkey ▸ hs))
    exact ⟨hkey, g, hg, h.goalKeyed _ g hg⟩
  carried_once _ _ hget := nodup_carriers h hget
  listed_once := nodup_goalsOf h
  listed_weight _ _ _ hmem := weight_eq_effectiveWeight h hmem

/-- **After any calls that replace shares by plans made of requests, owners and shares are sound.**
Nothing is asked of the promotions: a share that is promoted may have changed since it was listed,
or be there no more. -/
theorem sharesSound_after (calls : List Call) (h : PlansResolved calls) :
    (Memory.empty.after calls).SharesSound := by
  refine (Ledger.empty.after ?_).sharesSound
  intro c hc
  cases c with
  | replaceShares plan =>
    obtain ⟨owner, targets, hplan⟩ := h plan hc
    exact SharePlan.owner_not_shared hplan
  | _ => trivial

/-- A goal is shared, goes to the third team, whose plan drops the second, and is then promoted to
the second by the share that it had before. -/
theorem sharesSound_after_stale_promotion :
    let draft : GoalDraft := ⟨"goal", "", .p0, ⟨40, by decide⟩, .delivery, .stability, ""⟩
    let share : Share := ⟨1, 2, ⟨30, by decide⟩, 1⟩
    let calls : List Call :=
      [.createGoal 1 7 draft,
        .replaceShares ⟨1, ⟨1, Weight.max⟩, [⟨2, share.weight⟩, ⟨3, Weight.max⟩]⟩,
        .replaceShares ⟨1, ⟨3, Weight.max⟩, []⟩, .promote share]
    PlansResolved calls ∧
      (Memory.empty.after (calls.take 2)).listShares 1 =
        [share, ⟨1, 3, Weight.max, 1⟩] ∧
      (Memory.empty.after (calls.take 3)).listShares 1 = [] ∧
      (Memory.empty.after calls).SharesSound := by
  intro draft share calls
  have hplans : PlansResolved calls := by
    intro plan hplan
    simp only [calls, List.mem_cons, reduceCtorEq, Call.replaceShares.injEq, List.not_mem_nil,
      or_false, false_or] at hplan
    rcases hplan with rfl | rfl
    · exact ⟨1, [⟨1, Weight.max⟩, ⟨2, share.weight⟩, ⟨3, Weight.max⟩], by decide⟩
    · exact ⟨1, [⟨3, Weight.max⟩], by decide⟩
  exact ⟨hplans, by decide, by decide, sharesSound_after calls hplans⟩

end Memory

end Objectives
