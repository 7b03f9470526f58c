/- # Goals of mirrors

Each call that writes goals, shares or statuses does the same to a store in memory and to a database that
mirror each other; and so do the commands on goals.

Main results:

* `Mirror.createGoal`, `Mirror.setOwner`, `Mirror.upsertShares`, … — the changes, one by one;
* `Mirror.goals_create`, `Mirror.goals_update`, `Mirror.goals_delete`, `Mirror.goals_share`,
  `Mirror.statuses_set` — **the commands**.
-/

import Objectives.Proofs.Mirror.Acting
import Objectives.Proofs.Mirror.Reading
import Objectives.Proofs.OrderKeys

set_option relaxedAutoImplicit false
set_option autoImplicit false

namespace Objectives

namespace Mirror

variable {ρ : Renaming} {m : Memory} {db : Contents} (h : Mirror ρ m db)

include h

/-! ### Statuses -/

theorem setStatus {team : TeamId} {period : PeriodId} (hteam : m.teams.contains team = true)
    (hperiod : m.periods.contains period = true) (status : Status) :
    ActsAlike ρ m db (fun _ _ _ => True) (Program.ask (.setStatus team period status))
      (Program.ask (.setStatus team period status)) := by
  refine .ask _ _ rfl fun _ => ⟨(), _, ρ, Session.setStatus_run
    ((h.contains_team team).trans hteam) ((h.contains_period period).trans hperiod) status,
    .refl ρ, ?_, trivial⟩
  have hkeys : m.statuses.Alike (fun e e' => e.1 = e'.1 ∧ (e'.1 ≠ (team, period) → Status.In e e'))
      db.rows.statuses := h.statuses.mono fun he => ⟨he.1, fun _ => he⟩
  exact { h with
    statuses := hkeys.insert Key.Monotone.eq rfl ⟨rfl, rfl⟩
    keyResults := h.keyResults_mono (.refl ρ) fun _ => rfl }

/-! ### Keys of goals -/

/-- The goals that a team owns in a period are the same. -/
theorem goalsOwned (team : TeamId) (period : PeriodId) :
    List.Forall₂ (fun g e => Goal.In ρ (g.id, g) e) (m.goalsOwned team period)
      (Session.goalsOwned db.rows team period) := by
  rw [Memory.goalsOwned, Table.filter_values]
  have hown := h.goals.filter (p := fun _ g => g.team == team && g.period == period)
    (q := fun _ row => row.team == team && row.period == period) fun {e e'} he => by
      rw [he.2.2]
      rfl
  refine Table.Alike.values hown fun {e e'} he => ?_
  rw [he.2.1]
  exact he

/-- A new last goal gets the same key. -/
theorem orderAfter_goals (team : TeamId) (period : PeriodId) :
    Memory.orderAfter ((Session.goalsOwned db.rows team period).map fun e => e.2.sortOrder) =
      Memory.orderAfter ((m.goalsOwned team period).map Goal.sortOrder) := by
  have hkeys : (m.goalsOwned team period).map Goal.sortOrder =
      (Session.goalsOwned db.rows team period).map fun e => e.2.sortOrder :=
    map_eq_of_alike (h.goalsOwned team period) fun g e he => by rw [he.2.2]; rfl
  rw [hkeys]

/-- A goal that goes to another team gets the same key there. -/
theorem orderAfter_others (team : TeamId) (period : PeriodId) {i j : GoalId}
    (hij : ρ.goals.Pairs i j) :
    Memory.orderAfter (((Session.goalsOwned db.rows team period).filter fun e =>
        e.1 != j).map fun e => e.2.sortOrder) =
      Memory.orderAfter (((m.goalsOwned team period).filter fun g => g.id != i).map
        Goal.sortOrder) := by
  have hothers := List.rel_filter (p := fun g : Goal => g.id != i)
    (q := fun e : GoalId × GoalRow => e.1 != j)
    (fun g e he => by simp only [bne_iff_ne, ne_eq, ρ.goals.eq_iff he.1 hij]) (h.goalsOwned team period)
  have hkeys : ((m.goalsOwned team period).filter fun g => g.id != i).map Goal.sortOrder =
      ((Session.goalsOwned db.rows team period).filter fun e => e.1 != j).map fun e =>
        e.2.sortOrder :=
    map_eq_of_alike hothers fun g e he => by rw [he.2.2]; rfl
  rw [hkeys]

/-! ### Changes of goals -/

/-- A goal put into both stores, in place of the one there. -/
theorem insert_goal {ρ' : Renaming} (hle : ρ.Le ρ') {i j : GoalId} (hij : ρ'.goals.Pairs i j)
    {g : Goal} (hown : g.id = i) :
    (m.goals.insert i g).Alike (Goal.In ρ') (db.rows.goals.insert j (.ofGoal g)) := by
  have hothers : m.goals.Alike (fun e e' => ρ'.goals.Pairs e.1 e'.1 ∧ (e'.1 ≠ j → Goal.In ρ' e e'))
      db.rows.goals := (h.goals_mono hle).mono fun he => ⟨he.1, fun _ => he⟩
  exact hothers.insert ρ'.goals.monotone hij ⟨hij, hown, rfl⟩

theorem createGoal {team : TeamId} {period : PeriodId} (hteam : m.teams.contains team = true)
    (hperiod : m.periods.contains period = true) {draft : GoalDraft} (hplain : draft.Plain) :
    ActsAlike ρ m db (fun ρ' g g' => g.Like ρ' g') (Program.ask (.createGoal team period draft))
      (Program.ask (.createGoal team period draft)) := by
  refine .ask _ _ rfl fun hfits => ?_
  have hnew : Memory.orderAfter ((m.goalsOwned team period).map Goal.sortOrder) ≤
      Statement.maxOrder := hfits.goals (Table.get?_insert_self ..)
  have hrun := Session.createGoal_run hplain (h.orderAfter_goals team period) hnew
    ((h.contains_team team).trans hteam) ((h.contains_period period).trans hperiod)
  -- The new goal has the next identifier on both sides.
  have hgoals := h.below.goals
  have hle : ρ.Le { ρ with goals := Pairing.extend hgoals 1 } :=
    ⟨Pairing.le_extend hgoals 1, .refl, .refl, .refl⟩
  have hpair : (Pairing.extend hgoals 1).Pairs (m.lastId + 1) (db.lastId .goals + 1) :=
    Pairing.extend_next hgoals
  refine ⟨_, _, { ρ with goals := Pairing.extend hgoals 1 }, hrun, hle, ?_, hpair, rfl⟩
  have hbelow : ρ.Below (m.lastId + 1) (db.withIds .goals 1).lastId :=
    h.below.mono (by omega) (db.lastId_le_withIds .goals 1)
  exact { h with
    below := { hbelow with goals := Pairing.extend_below hgoals 1 }
    goals := h.insert_goal hle hpair rfl
    shares := h.shares_mono hle
    keyResults := h.keyResults_mono hle fun _ => rfl }

/-- One goal is replaced in both stores. -/
theorem replace_goal {i j : GoalId} (hij : ρ.goals.Pairs i j) {g : Goal} (hown : g.id = i) :
    Mirror ρ { m with goals := m.goals.insert i g }
      { db with rows := { db.rows with goals := db.rows.goals.insert j (.ofGoal g) } } :=
  { h with
    goals := h.insert_goal (.refl ρ) hij hown
    keyResults := h.keyResults_mono (.refl ρ) fun _ => rfl }

/-- One share is set in both stores. -/
theorem set_share {i j : GoalId} (hij : ρ.goals.Pairs i j) {s : Share} (hgoal : s.goal = i)
    (hteam : m.teams.contains s.team = true) :
    Mirror ρ { m with shares := m.shares.insert (i, s.team) s }
      { db with
        rows := { db.rows with shares := db.rows.shares.insert (j, s.team) (.ofShare s) } } := by
  have hothers : m.shares.Alike (fun e e' => (ρ.goals.Pairs e.1.1 e'.1.1 ∧ e.1.2 = e'.1.2) ∧
      (e'.1 ≠ (j, s.team) → Share.In ρ e e')) db.rows.shares :=
    h.shares.mono fun he => ⟨he.1, fun _ => he⟩
  refine { h with
    shares := hothers.insert ρ.goals.monotone_fst ⟨hij, rfl⟩ ⟨⟨hij, rfl⟩, by rw [hgoal], rfl⟩
    keyResults := h.keyResults_mono (.refl ρ) fun _ => rfl
    staffed := ?_ }
  intro goal team hcontains
  obtain ⟨s', hs'⟩ := Table.contains_iff.1 hcontains
  rw [Table.get?_insert] at hs'
  by_cases hkey : (i, s.team) = (goal, team)
  · cases hkey
    exact hteam
  · rw [if_neg hkey] at hs'
    exact h.staffed goal team (Table.contains_of_get? hs')

/-- A share is set to a weight in both stores; a new one takes over the key of the goal. -/
theorem setShare {i j : GoalId} (hij : ρ.goals.Pairs i j) (target : ShareTarget) (new : Int) :
    ∃ order, Memory.setShare i new m.shares target =
        m.shares.insert (i, target.team) ⟨i, target.team, target.weight, order⟩ ∧
      ((db.rows.shares.get? (j, target.team)).map ShareRow.sortOrder).getD new = order := by
  have hshare := h.share_get? hij target.team
  rw [Memory.setShare]
  generalize m.shares.get? (i, target.team) = found, db.rows.shares.get? (j, target.team) = found'
    at hshare
  cases hshare with
  | none => exact ⟨new, rfl, rfl⟩
  | @some s row he =>
    obtain ⟨-, hown, rfl⟩ := he
    have hgoal : s.goal = i := congrArg Prod.fst hown
    have hteam : s.team = target.team := congrArg Prod.snd hown
    refine ⟨s.sortOrder, ?_, rfl⟩
    dsimp only
    rw [hgoal, hteam]

/-- Shares are taken out of both stores. -/
theorem filter_shares {p : GoalId × TeamId → Share → Bool} {q : GoalId × TeamId → ShareRow → Bool}
    (hpq : ∀ {e e'}, Share.In ρ e e' → p e.1 e.2 = q e'.1 e'.2) :
    Mirror ρ { m with shares := m.shares.filter p }
      { db with rows := { db.rows with shares := db.rows.shares.filter q } } :=
  { h with
    shares := h.shares.filter hpq
    keyResults := h.keyResults_mono (.refl ρ) fun _ => rfl
    staffed := fun goal team hkept => h.staffed goal team (Table.contains_of_filter hkept) }

theorem erase_share {i j : GoalId} (hij : ρ.goals.Pairs i j) (team : TeamId) :
    Mirror ρ (m.removeShare i team)
      { db with rows := { db.rows with shares := db.rows.shares.erase (j, team) } } := by
  refine h.filter_shares fun {e e'} he => ?_
  have hkey : e.1 = (i, team) ↔ e'.1 = (j, team) := by
    rw [Prod.ext_iff, Prod.ext_iff, ρ.goals.eq_iff he.1.1 hij, he.1.2]
  exact decide_eq_decide.2 (not_congr hkey)

theorem removeShare {i j : GoalId} (hij : ρ.goals.Pairs i j) (team : TeamId) :
    ActsAlike ρ m db (fun _ _ _ => True) (Program.ask (.removeShare i team))
      (Program.ask (.removeShare j team)) :=
  .ask _ _ rfl fun _ =>
    ⟨(), _, ρ, Session.execute_run_ok (Session.dropShare_run j team _) _, .refl ρ,
      h.erase_share hij team, trivial⟩

section Present

variable {i j : GoalId} {g : Goal} (hg : m.goals.get? i = some g) (hij : ρ.goals.Pairs i j)

include hg hij

/-- A goal that is there is in a row of the database. -/
theorem row_of_get? : g.id = i ∧ db.rows.goals.get? j = some (.ofGoal g) := by
  have hrel := h.goal_get? (.of_pairs hij)
  rw [hg] at hrel
  generalize db.rows.goals.get? j = found at hrel
  cases hrel with
  | some he =>
    obtain ⟨-, hown, rfl⟩ := he
    exact ⟨hown, rfl⟩

theorem updateGoal {draft : GoalDraft} (hplain : draft.Plain) :
    ActsAlike ρ m db (fun _ _ _ => True) (Program.ask (.updateGoal i draft))
      (Program.ask (.updateGoal j draft)) := by
  obtain ⟨hown, hrow⟩ := h.row_of_get? hg hij
  have hm : Memory.carry (.updateGoal i draft) m =
      (.ok (), { m with goals := m.goals.insert i (g.apply draft) }) := by
    simp only [Memory.carry, Memory.updateGoal, hg]
  refine .ask _ _ hm fun _ => ?_
  have hrun := Session.updateGoal_run hplain j db
  rw [Table.contains_of_get? hrow, Table.modify_eq_insert hrow, if_pos rfl] at hrun
  exact ⟨_, _, ρ, hrun, .refl ρ, h.replace_goal hij (g := g.apply draft) hown, trivial⟩

/-- The weight of a goal is set for a team, or the team does not carry the goal in either store. -/
theorem setTeamWeight (team : TeamId) (weight : Weight) :
    ActsAlike ρ m db (fun _ _ _ => True) (Program.ask (.setTeamWeight i team weight))
      (Program.ask (.setTeamWeight j team weight)) := by
  obtain ⟨hown, hrow⟩ := h.row_of_get? hg hij
  have hrun := Session.setTeamWeight_run hrow team weight
  by_cases hteam : g.team = team
  · -- The team owns the goal.
    have hm : Memory.carry (.setTeamWeight i team weight) m =
        (.ok (), { m with goals := m.goals.insert i { g with weight } }) := by
      simp only [Memory.carry, Memory.setTeamWeight, hg, Goal.isOwnedBy, hteam, beq_self_eq_true,
        if_true]
    rw [if_pos (by exact hteam)] at hrun
    exact .ask _ _ hm fun _ => ⟨_, _, ρ, hrun, .refl ρ,
      h.replace_goal hij (g := { g with weight }) hown, trivial⟩
  · have hm : Memory.carry (.setTeamWeight i team weight) m = m.setShareWeight i team weight := by
      simp only [Memory.carry, Memory.setTeamWeight, hg, Goal.isOwnedBy, beq_iff_eq, hteam, if_false]
    rw [if_neg (by exact hteam)] at hrun
    -- Any other team needs a share.
    have hshare := h.share_get? hij team
    rw [Memory.setShareWeight] at hm
    generalize hs : m.shares.get? (i, team) = s, db.rows.shares.get? (j, team) = row
      at hshare hm hrun
    cases hshare with
    | none => exact .ask_error h _ _ hm hrun rfl rfl
    | @some s row he =>
      obtain ⟨-, hshareOwn, rfl⟩ := he
      have hgoal : s.goal = i := congrArg Prod.fst hshareOwn
      have hsame : s.team = team := congrArg Prod.snd hshareOwn
      subst hsame
      have hthere := h.staffed i s.team (Table.contains_of_get? hs)
      exact .ask _ _ hm fun _ => ⟨_, _, ρ, hrun, .refl ρ,
        h.set_share hij (s := { s with weight }) hgoal hthere, trivial⟩

/-- A goal gets its owner in both stores. -/
theorem setOwner (owner : ShareTarget) (hteam : m.teams.contains owner.team = true) :
    ∃ g', g'.id = i ∧ m.setOwner i owner = (.ok g', { m with goals := m.goals.insert i g' }) ∧
      (g'.sortOrder ≤ Statement.maxOrder →
        Session.setOwner j owner .standard db = (.ok (), { db with
          rows := { db.rows with goals := db.rows.goals.insert j (.ofGoal g') } })) := by
  obtain ⟨hown, hrow⟩ := h.row_of_get? hg hij
  by_cases hsame : g.team = owner.team
  · refine ⟨{ g with team := owner.team, weight := owner.weight }, hown, ?_, fun _ => ?_⟩
    · simp only [Memory.setOwner, hg, hsame, beq_self_eq_true, if_true]
    · have hteam : (GoalRow.ofGoal g).team = owner.team := hsame
      rw [Session.setOwner_run_of_eq hrow hteam, ← hsame]
      rfl
  · have hkey := h.orderAfter_others owner.team g.period hij
    refine ⟨{ g with
      team := owner.team
      weight := owner.weight
      sortOrder := Memory.orderAfter (((m.goalsOwned owner.team g.period).filter fun g' =>
        g'.id != i).map Goal.sortOrder) }, hown, ?_, fun hfits => ?_⟩
    · simp only [Memory.setOwner, hg, beq_iff_eq, hsame, if_false]
    · exact Session.setOwner_run_of_ne hrow hsame hkey hfits
        ((h.contains_team owner.team).trans hteam)

/-- Shares are set one after the other in both stores. -/
theorem upsertShares {targets : List ShareTarget}
    (hteams : ∀ target ∈ targets, m.teams.contains target.team = true) :
    ∃ rows, Session.forEach (fun target =>
          Session.execute "Failed to upsert goal share" (Session.upsertShare j target))
        targets .standard db = (.ok (), { db with rows }) ∧
      Mirror ρ { m with shares := targets.foldl (Memory.setShare i g.sortOrder) m.shares }
        { db with rows } := by
  induction targets generalizing m db with
  | nil => exact ⟨db.rows, rfl, h⟩
  | cons target rest ih =>
    obtain ⟨hown, hrow⟩ := h.row_of_get? hg hij
    have hteam := hteams target (List.mem_cons_self ..)
    have hrun := Session.upsertShare_run hrow ((h.contains_team target.team).trans hteam)
    obtain ⟨order, hset, horder⟩ := h.setShare hij target g.sortOrder
    rw [show (GoalRow.ofGoal g).sortOrder = g.sortOrder from rfl, horder] at hrun
    have hnext := h.set_share hij (s := ⟨i, target.team, target.weight, order⟩) rfl hteam
    obtain ⟨rows, hrest, hmirror⟩ := ih hnext hg fun t ht => hteams t (List.mem_cons_of_mem _ ht)
    refine ⟨rows, ?_, ?_⟩
    · rw [Session.forEach, Effect.bind_run, Session.execute_run_ok hrun]
      exact hrest
    · rw [List.foldl_cons, hset]
      exact hmirror

/-- The owner of a goal and its shares are set in both stores. -/
theorem replaceShares (owner : ShareTarget) (shares : List ShareTarget)
    (howner : m.teams.contains owner.team = true)
    (hteams : ∀ target ∈ shares, m.teams.contains target.team = true) :
    ActsAlike ρ m db (fun _ _ _ => True) (Program.ask (.replaceShares ⟨i, owner, shares⟩))
      (Program.ask (.replaceShares ⟨j, owner, shares⟩)) := by
  obtain ⟨g', hown, hset, hrun⟩ := h.setOwner hg hij owner howner
  have hm : Memory.carry (.replaceShares ⟨i, owner, shares⟩) m = (.ok (), { m with
      goals := m.goals.insert i g'
      shares := shares.foldl (Memory.setShare i g'.sortOrder) (m.shares.filter fun key _ =>
        key.1 != i || shares.any fun s => s.team == key.2) }) := by
    simp only [Memory.carry, Memory.replaceShares, hset]
  refine .ask _ _ hm fun hfits => ?_
  have hrun := hrun (hfits.goals (Table.get?_insert_self ..))
  -- First the owner changes, then the other shares go, and then those of the plan are set.
  have howned := h.replace_goal hij hown
  have hpruned := howned.filter_shares
    (p := fun key _ => key.1 != i || shares.any fun s => s.team == key.2)
    (q := fun key _ => key.1 != j || (shares.map ShareTarget.team).contains key.2) fun {e e'} he => by
      have hgoal : (e.1.1 != i) = (e'.1.1 != j) := by
        rw [Bool.eq_iff_iff, bne_iff_ne, bne_iff_ne, ne_eq, ne_eq, ρ.goals.eq_iff he.1.1 hij]
      have hteam : (shares.any fun s => s.team == e.1.2) =
          (shares.map ShareTarget.team).contains e'.1.2 := by
        rw [he.1.2, List.contains_eq_any_beq, List.any_map]
        exact congrArg shares.any (funext fun s => BEq.comm)
      rw [hgoal, hteam]
  obtain ⟨rows, hshares, hmirror⟩ := hpruned.upsertShares (Table.get?_insert_self ..) hij hteams
  refine ⟨(), { db with rows }, ρ, ?_, .refl ρ, hmirror, trivial⟩
  refine Session.transaction_run_ok ?_
  rw [Effect.bind_run, hrun]
  dsimp only
  rw [Effect.bind_run, Session.execute_run_ok (Session.pruneShares_run ..)]
  exact hshares

/-- The team of a share becomes the owner in both stores, and the share goes. -/
theorem promote {team : TeamId} (hteam : m.teams.contains team = true) (weight : Weight)
    (order : Int) :
    ActsAlike ρ m db (fun _ _ _ => True) (Program.ask (.promote ⟨i, team, weight, order⟩))
      (Program.ask (.promote ⟨j, team, weight, order⟩)) := by
  obtain ⟨g', hown, hset, hrun⟩ := h.setOwner hg hij ⟨team, weight⟩ hteam
  have hm : Memory.carry (.promote ⟨i, team, weight, order⟩) m = (.ok (), { m with
      goals := m.goals.insert i g'
      shares := m.shares.erase (i, team) }) := by
    simp only [Memory.carry, Memory.promote, hset, Memory.removeShare]
  refine .ask _ _ hm fun hfits => ?_
  have hrun := hrun (hfits.goals (Table.get?_insert_self ..))
  have howned := h.replace_goal hij hown
  refine ⟨(), _, ρ, ?_, .refl ρ, howned.erase_share hij team, trivial⟩
  refine Session.transaction_run_ok ?_
  rw [Effect.bind_run, hrun]
  exact Session.execute_run_ok (Session.dropShare_run j team _) _

/-- A goal goes from both stores with all that is on it. -/
theorem deleteGoal :
    ActsAlike ρ m db (fun _ _ _ => True) (Program.ask (.deleteGoal i))
      (Program.ask (.deleteGoal j)) := by
  obtain ⟨-, hrow⟩ := h.row_of_get? hg hij
  have hm : Memory.carry (.deleteGoal i) m = (.ok (), { m with
      goals := m.goals.erase i
      shares := m.shares.filter fun key _ => key.1 != i
      keyResults := m.keyResults.filter fun _ k => k.goal != i
      comments := m.comments.filter fun _ comment => !m.isCommentOn i comment }) := by
    simp only [Memory.carry, Memory.deleteGoal, Table.contains_of_get? hg, if_true]
  refine .ask _ _ hm fun _ => ?_
  have hrun := Session.deleteGoal_run j db
  rw [Table.contains_of_get? hrow, if_pos rfl] at hrun
  refine ⟨(), _, ρ, hrun, .refl ρ, ?_, trivial⟩
  have hdifferent {a a' : GoalId} (ha : ρ.goals.Pairs a a') : (a != i) = !(a' == j) := by
    rw [Bool.eq_iff_iff, bne_iff_ne, ne_eq, ρ.goals.eq_iff ha hij]
    simp
  -- Key results of the goal go first; what they are under is looked up before.
  have hkeyResults := h.delete_keyResults (p := fun _ k => k.goal != i)
    (q := db.rows.isUnder (· == j)) fun {e e'} he hmem => by
      rw [hdifferent he.goal, Rows.isUnder, Table.get?_eq_some_iff.2 hmem]
  have hshares := hkeyResults.filter_shares (p := fun key _ => key.1 != i)
    (q := fun key _ => !(key.1 == j)) fun he => hdifferent he.1.1
  have hgoals := hshares.goals.filter (p := fun id _ => decide (id ≠ i))
    (q := fun id _ => !(id == j)) fun he => by
      rw [← hdifferent he.1, Bool.eq_iff_iff, decide_eq_true_eq, bne_iff_ne]
  exact { hshares with
    goals := hgoals
    keyResults := hshares.keyResults_mono (.refl ρ) fun _ => rfl
    comments := by
      rw [h.comments]
      rfl
    goalComments := by
      simp only [Rows.deleteGoals, h.goalComments]
      rfl }

end Present

end Mirror

/-! ### The commands -/

section Answers

variable (ρ : Renaming)

/-- The created goals differ in their identifiers at most. -/
def GoalCreated.Like (c c' : GoalCreated) : Prop :=
  c.goal.Like ρ c'.goal ∧ c' = { c with goal := c'.goal }

/-- The plans differ at most in the identifiers of their goals. -/
def GoalShared.Like (s s' : GoalShared) : Prop :=
  ρ.goals.Pairs s.plan.goal s'.plan.goal ∧
    s' = { s with plan := { s.plan with goal := s'.plan.goal } }

end Answers

theorem Share.Like.exists_goal {ρ : Renaming} {s s' : Share} (h : s.Like ρ s') :
    ∃ j, ρ.goals.Pairs s.goal j ∧ s' = { s with goal := j } :=
  ⟨s'.goal, h⟩

theorem Goal.Like.exists_id {ρ : Renaming} {g g' : Goal} (h : g.Like ρ g') :
    ∃ j, ρ.goals.Pairs g.id j ∧ g' = { g with id := j } :=
  ⟨g'.id, h⟩

namespace Mirror

variable {ρ : Renaming} {m : Memory} {db : Contents} (h : Mirror ρ m db)

include h

/-- **A goal is created alike.** -/
theorem goals_create (team : TeamId) (period : PeriodId) {draft : GoalDraft} (hplain : draft.Plain) :
    ActsAlike ρ m db GoalCreated.Like (Goals.create team period draft)
      (Goals.create team period draft) := by
  unfold Goals.create
  refine (ReadsAlike.check draft.normalized).bind_acts h fun d d' hd _ => ?_
  obtain ⟨rfl, hnormal⟩ := hd
  refine (h.requireTeam team).bind_acts h fun t t' ht _ => ?_
  refine (h.requirePeriod period).bind_acts h fun p p' hp _ => ?_
  refine (h.requireOpen team period .createGoal).bind_acts h fun s s' hs _ => ?_
  subst hs
  have hteam := Table.contains_of_get? ht.2
  have hperiod := Table.contains_of_get? hp.2
  have hcreated := h.createGoal hteam hperiod ((GoalDraft.of_normalized hnormal).2 hplain)
  refine hcreated.bind (fun g m' _ hend => ?_) fun ρ' m' db' g g' _ h' hg hrun => ?_
  · -- The status that is set last has no key.
    by_cases hnext : s'.afterGoalCreated ≠ s'
    · simp only [if_pos hnext] at hend
      exact hend.of_eq rfl rfl
    · simp only [if_neg hnext] at hend
      exact hend
  · have hsame : m' = (m.createGoal team period d').2 := (congrArg Prod.snd hrun).symm
    subst hsame
    by_cases hnext : s'.afterGoalCreated ≠ s'
    · simp only [if_pos hnext]
      exact (h'.setStatus hteam hperiod _).map fun ρ'' _ _ hle _ => ⟨hg.mono hle, rfl⟩
    · simp only [if_neg hnext]
      exact ReadsAlike.acts (.done ⟨hg, rfl⟩) h'

/-- **A goal is changed alike**, by its owner or by another team. -/
theorem goals_update {i j : GoalId} (hij : ρ.SameGoal m db i j) (asTeam : Option TeamId)
    {draft : GoalDraft} (hplain : draft.Plain) :
    ActsAlike ρ m db Goal.Like (Goals.update i asTeam draft) (Goals.update j asTeam draft) := by
  unfold Goals.update
  refine (ReadsAlike.check draft.normalized).bind_acts h fun d d' hd _ => ?_
  obtain ⟨rfl, hnormal⟩ := hd
  have hplain := (GoalDraft.of_normalized hnormal).2 hplain
  refine (h.requireGoal hij).bind_acts h fun g g' hg _ => ?_
  obtain ⟨hg, hget⟩ := hg
  obtain ⟨k, hpair, rfl⟩ := hg.exists_id
  refine (h.requireOpen (asTeam.getD g.team) g.period .updateGoal).bind_acts h fun s s' _ _ => ?_
  by_cases howned : g.isOwnedBy (asTeam.getD g.team) = true
  · rw [if_pos howned, if_pos (by exact howned)]
    exact (h.updateGoal hget hpair hplain).map fun ρ' _ _ hle _ =>
      ⟨hle.goals _ _ hpair, rfl⟩
  · rw [if_neg howned, if_neg (by exact howned)]
    -- The weight of the team is set first; an edit by the owner has no such part.
    refine (h.setTeamWeight hget hpair (asTeam.getD g.team) d'.weight).bind
      (fun _ m' _ hend => ?_) fun ρ' m' db' _ _ hle h' _ hrun => ?_
    · exact Memory.Fits.of_updateGoal (Memory.Fits.of_run_ask hend)
    · have hsame : m' = (m.setTeamWeight g.id (asTeam.getD g.team) d'.weight).2 := by
        rw [run_ask] at hrun
        exact (congrArg Prod.snd hrun).symm
      have hgoals : m'.goals = m.goals := by
        simp only [hsame, Memory.setTeamWeight, hget, if_neg howned]
        exact Memory.setShareWeight_goals ..
      have hget' : m'.goals.get? g.id = some g := by rw [hgoals, hget]
      have hplain' : GoalDraft.Plain { d' with weight := g.weight } := hplain
      have hedited := h'.updateGoal hget' (hle.goals _ _ hpair) hplain'
      exact hedited.map fun ρ'' _ _ hle' _ => ⟨hle'.goals _ _ (hle.goals _ _ hpair), rfl⟩

/-- **A goal is deleted alike**, or handed to the first team with a share, or given up by a team with
a share. -/
theorem goals_delete {i j : GoalId} (hij : ρ.SameGoal m db i j) (asTeam : Option TeamId) :
    ActsAlike ρ m db (fun _ d d' => d' = d) (Goals.delete i asTeam) (Goals.delete j asTeam) := by
  unfold Goals.delete
  refine (h.requireGoal hij).bind_acts h fun g g' hg _ => ?_
  obtain ⟨hg, hget⟩ := hg
  have hmatch := hg.1
  rw [hg.team, hg.period]
  refine (h.requireOpen (asTeam.getD g.team) g.period .deleteGoal).bind_acts h fun s s' _ _ => ?_
  simp only [hg.isOwnedBy]
  split
  · refine (h.askShares hmatch).bind_acts h fun l l' hl _ => ?_
    obtain ⟨hl, hlist⟩ := hl
    cases hl with
    | nil => exact (h.deleteGoal hget hg.1).map fun _ _ _ _ _ => rfl
    | @cons heir heir' _ _ hheir _ =>
      have hheirs : heir ∈ m.listShares g.id := hlist ▸ List.mem_cons_self ..
      obtain ⟨hgoal, hteam⟩ := h.of_mem_listShares hheirs
      obtain ⟨k, hpair, rfl⟩ := hheir.exists_goal
      have hpromoted := h.promote (hgoal ▸ hget) hpair hteam heir.weight heir.sortOrder
      exact hpromoted.map fun _ _ _ _ _ => rfl
  · exact (h.removeShare hmatch _).map fun _ _ _ _ _ => rfl

/-- A team is checked alike, and if it is not refused it is there. -/
theorem checkTarget {g g' : Goal} (hg : g.Like ρ g') {shares shares' : List Share}
    (hshares : List.Forall₂ (Share.Like ρ) shares shares') (statuses : Table TeamId Status)
    (team : TeamId) :
    ReadsAlike m db (fun _ _ => m.teams.contains team = true)
      (Goals.checkTarget g shares statuses team) (Goals.checkTarget g' shares' statuses team) := by
  unfold Goals.checkTarget
  refine (h.requireTeam team).bind fun t t' ht _ => ?_
  have hthere := Table.contains_of_get? ht.2
  simp only [hg.isOwnedBy, any_team_of_like hshares]
  split
  · exact .done hthere
  · split
    · exact .done hthere
    · exact .fail rfl rfl

omit h in
/-- A plan names its goal and is the same otherwise. -/
theorem checkPlan (i j : GoalId) (owner : TeamId) (targets : List ShareTarget) :
    ReadsAlike m db (fun plan plan' => plan.goal = i ∧ plan' = { plan with goal := j })
      (Program.check (SharePlan.resolve i owner targets))
      (Program.check (SharePlan.resolve j owner targets)) := by
  unfold SharePlan.resolve
  dsimp only
  split
  · exact .fail rfl rfl
  · exact .done ⟨rfl, rfl⟩

/-- **A goal is shared alike.** -/
theorem goals_share {i j : GoalId} (hij : ρ.SameGoal m db i j) (targets : List ShareTarget) :
    ActsAlike ρ m db GoalShared.Like (Goals.share i targets) (Goals.share j targets) := by
  unfold Goals.share
  refine (h.requireGoal hij).bind_acts h fun g g' hg _ => ?_
  obtain ⟨hg, hget⟩ := hg
  have hmatch := hg.1
  rw [hg.team, hg.period]
  refine (checkPlan g.id g'.id g.team targets).bind_acts h fun plan plan' hplan _ => ?_
  obtain ⟨hgoal, rfl⟩ := hplan
  refine (h.askShares hmatch).bind_acts h fun l l' hl _ => ?_
  refine (h.askStatuses g.period).bind_acts h fun u u' hu _ => ?_
  subst hu
  have hchecks : ReadsAlike m db (fun _ _ => ∀ team ∈ plan.teams, m.teams.contains team = true)
      (Program.each (Goals.checkTarget g l u') plan.teams)
      (Program.each (Goals.checkTarget g' l' u') plan.teams) :=
    .each_all fun team => h.checkTarget hg hl.1 u' team
  refine hchecks.bind_acts h fun _ _ hteams _ => ?_
  obtain ⟨goal, owner, shares⟩ := plan
  subst hgoal
  have howner := hteams owner.team (List.mem_cons_self ..)
  have hshares : ∀ target ∈ shares, m.teams.contains target.team = true := fun target htarget =>
    hteams target.team (List.mem_cons_of_mem _ (List.mem_map_of_mem htarget))
  exact (h.replaceShares hget hg.1 owner shares howner hshares).map fun _ _ _ hle _ =>
    ⟨hle.goals _ _ hg.1, rfl⟩

/-- **The status of a team is set alike.** -/
theorem statuses_set (team : TeamId) (period : PeriodId) (status : Status) :
    ActsAlike ρ m db (fun _ s s' => s' = s) (Statuses.set team period status)
      (Statuses.set team period status) := by
  unfold Statuses.set
  refine (h.requireTeam team).bind_acts h fun t t' ht _ => ?_
  refine (h.requirePeriod period).bind_acts h fun p p' hp _ => ?_
  refine (h.askStatus team period).bind_acts h fun s s' hs _ => ?_
  subst hs
  refine (ReadsAlike.check (Lifecycle.move s' status)).bind_acts h fun u u' hu _ => ?_
  obtain ⟨rfl, -⟩ := hu
  have hset := h.setStatus (Table.contains_of_get? ht.2) (Table.contains_of_get? hp.2) u'
  exact hset.map fun _ _ _ _ _ => rfl

end Mirror

end Objectives
