/- # The rows of all teams

The rows of a period are put together from three tables.  The list of a team decides which goals
stand in its row and at which weight, the shares of a goal decide which teams are listed with it, and
the walk decides which teams have a row.  That nothing is lost and nothing is counted twice rests on
how owners and shares fit each other, and on all carriers being teams.

Main definitions:

* `Program.Answers` — a program that reads and gives an answer;
* `Memory.summary`, `Memory.row` — a goal in a row, and the row of a team;
* `Memory.ContributorsSound`, `Memory.RowsSound` — what can be relied on in the rows of a period.

Main results:

* `Rollup.ofHierarchy_answers` — the rows of the teams in a walk;
* `Memory.perm_carriers` — the teams that carry a goal are its owner and those with a share;
* `Memory.rowsSound_of_reachable` — **in every store that can come about, with acyclic teams, each goal
  stands once in the row of every team that carries it, at the weight and with the teams that follow
  from its owner and shares**.
-/

import Objectives.Proofs.Contributors
import Objectives.Proofs.Reachable
import Objectives.Proofs.Walk
import Objectives.Rollup.Query

set_option relaxedAutoImplicit false
set_option autoImplicit false

namespace Objectives

/-! ### Programs that read -/

namespace Program

variable {α β : Type} {m : Memory}

/-- The program gives an answer and leaves the store as it is. -/
def Answers (p : Program α) (m : Memory) (a : α) : Prop :=
  p.run Memory.carry m = (.ok a, m)

namespace Answers

theorem done (a : α) : (Program.done a).Answers m a := rfl

theorem bind {p : Program α} {f : α → Program β} {a : α} {b : β} (h : p.Answers m a)
    (hf : (f a).Answers m b) : (p.bind f).Answers m b := by
  rw [Answers, Program.run_bind, h]
  exact hf

/-- What follows an answer runs on the store that has been asked. -/
theorem run_bind {p : Program α} {a : α} (h : p.Answers m a) (f : α → Program β) :
    (p.bind f).run Memory.carry m = (f a).run Memory.carry m := by
  rw [Program.run_bind, h]

theorem ask {c : Call} {reply : c.Reply} (h : Memory.carry c m = (.ok reply, m)) :
    (Program.ask c).Answers m reply := by
  rw [Answers, Program.ask, run, h]
  rfl

theorem each {f : α → Program β} {g : α → β} {list : List α} (h : ∀ a ∈ list, (f a).Answers m (g a)) :
    (Program.each f list).Answers m (list.map g) := by
  induction list with
  | nil => exact done []
  | cons a rest ih =>
    refine (h a (List.mem_cons_self ..)).bind ?_
    exact (ih fun a' ha' => h a' (List.mem_cons_of_mem _ ha')).bind (done _)

end Answers

end Program

/-! ### Rows -/

namespace Memory

/-- The hierarchy of the stored teams. -/
def hierarchy (m : Memory) : Hierarchy := Hierarchy.ofList m.teams.values

/-- A goal in the list of a team, as it is shown. -/
def summary (m : Memory) (entry : TeamGoal) : GoalSummary where
  id := entry.goal.id
  title := entry.goal.title
  priority := entry.goal.priority
  weight := entry.weight
  progress := Progress.ofKeyResults (m.listKeyResults entry.goal.id)
  isOwned := entry.isOwned
  contributingTeams := contributingTeams entry.goal (m.listShares entry.goal.id) m.hierarchy

/-- The row of a walked team in a period. -/
def row (m : Memory) (indentUnit : Nat) (period : PeriodId) (e : WalkEntry) : TeamSummary :=
  TeamSummary.aggregate e.team e.depth indentUnit
    (((m.listStatuses period).get? e.team.id).getD .noGoals)
    ((m.goalsOf e.team.id period).map m.summary)

end Memory

namespace Rollup

variable {m : Memory}

theorem hierarchy_answers : Rollup.hierarchy.Answers m m.hierarchy :=
  Program.Answers.bind (.ask rfl) (.done _)

theorem goalSummaries_answers (team : TeamId) (period : PeriodId) :
    (goalSummaries m.hierarchy team period).Answers m ((m.goalsOf team period).map m.summary) := by
  refine Program.Answers.bind (.ask rfl) (.each fun entry _ => ?_)
  exact Program.Answers.bind (.ask rfl) (.bind (.ask rfl) (.done _))

theorem requirePeriod_answers {period : PeriodId} {p : Period}
    (hp : m.periods.get? period = some p) : (requirePeriod period).Answers m p := by
  refine Program.Answers.bind (.ask rfl) ?_
  show (Program.expect _ (m.periods.get? period)).Answers m p
  rw [hp]
  exact .done p

/-- The rows of the teams in a walk. -/
theorem ofHierarchy_answers {period : PeriodId} {root : Option TeamId} {entries : List WalkEntry}
    (hperiod : m.periods.contains period = true) (hw : m.hierarchy.walk root = .ok entries)
    (indentUnit : Nat) :
    (ofHierarchy indentUnit period root).Answers m (entries.map (m.row indentUnit period)) := by
  obtain ⟨p, hp⟩ := Table.contains_iff.1 hperiod
  refine (requirePeriod_answers hp).bind (hierarchy_answers.bind ?_)
  have hwalk : (Program.lift (m.hierarchy.walk root)).Answers m entries := by
    rw [hw]
    exact .done entries
  refine hwalk.bind (Program.Answers.bind (.ask rfl) (.each fun e _ => ?_))
  exact (goalSummaries_answers e.team.id period).bind (.done _)

end Rollup

/-! ### Who carries a goal -/

namespace Memory

variable {m : Memory}

theorem carries_iff {team : TeamId} {g : Goal} :
    m.carries team g = true ↔ team = g.team ∨ m.shares.contains (g.id, team) = true := by
  rw [carries, Bool.or_eq_true, Goal.isOwnedBy, beq_iff_eq, eq_comm]

theorem mem_carriers_iff (h : m.Ledger) {team : TeamId} {g : Goal} :
    team ∈ g.team :: (m.listShares g.id).map Share.team ↔ m.carries team g = true := by
  rw [List.mem_cons, mem_map_listShares h, carries_iff]

/-- The stored teams have distinct identifiers. -/
theorem Sound.nodup_teams (h : m.Sound) : (m.teams.values.map Team.id).Nodup := by
  rw [h.teamsKeyed.map_values]
  exact m.teams.nodup_keys

/-- All teams that carry a goal are stored. -/
theorem Sound.mem_keys_of_carries (h : m.Sound) {id : GoalId} {g : Goal} {team : TeamId}
    (hget : m.goals.get? id = some g) (hcarries : m.carries team g = true) :
    team ∈ m.teams.keys := by
  rw [Table.mem_keys_iff, ← Table.contains_iff]
  rcases carries_iff.1 hcarries with rfl | hshare
  · exact h.staffed g.team (.of_goal hget)
  · exact h.staffed team (.of_share hshare)

/-- The stored teams that carry a goal are its owner and the teams with a share. -/
theorem perm_carriers (h : m.Sound) {g : Goal} (hget : m.goals.get? g.id = some g) :
    (m.teams.keys.filter fun team => m.carries team g).Perm
      (g.team :: (m.listShares g.id).map Share.team) := by
  refine (List.perm_ext_iff_of_nodup (m.teams.nodup_keys.filter _)
    (nodup_carriers h.ledger hget)).2 fun team => ?_
  rw [List.mem_filter, mem_carriers_iff h.ledger]
  constructor
  · rintro ⟨-, hcarries⟩
    exact hcarries
  · intro hcarries
    exact ⟨h.mem_keys_of_carries hget hcarries, hcarries⟩

/-- A goal stands in the list of a team if it is of the period and the team carries it. -/
theorem mem_goalsOf_iff (h : m.Ledger) {team : TeamId} {period : PeriodId} {id : GoalId} {g : Goal}
    (hget : m.goals.get? id = some g) :
    id ∈ (m.goalsOf team period).map (fun entry => entry.goal.id) ↔
      g.period = period ∧ m.carries team g = true := by
  have hperm := ((m.goals_goalsOf_perm team period).map Goal.id).mem_iff (a := id)
  rw [List.map_map] at hperm
  refine hperm.trans ?_
  rw [List.mem_map]
  constructor
  · rintro ⟨g', hg', rfl⟩
    obtain ⟨hmem, htest⟩ := List.mem_filter.1 hg'
    rw [h.goalKeyed.get?_of_mem hmem, Option.some_inj] at hget
    subst hget
    simpa using htest
  · rintro ⟨hperiod, hcarries⟩
    refine ⟨g, List.mem_filter.2 ⟨Table.mem_values_iff.2 ⟨id, hget⟩, ?_⟩, h.goalKeyed id g hget⟩
    rw [hcarries, hperiod, beq_self_eq_true]
    rfl

/-! ### Counting rows -/

theorem countP_eq_sum {β : Type} (p : β → Bool) (bs : List β) :
    bs.countP p = (bs.map fun b => if p b then 1 else 0).sum := by
  induction bs with
  | nil => rfl
  | cons b rest ih => rw [List.countP_cons, List.map_cons, List.sum_cons, ih, Nat.add_comm]

/-- Pairs can be counted from either side. -/
theorem sum_countP_comm {α β : Type} (p : α → β → Bool) (as : List α) (bs : List β) :
    (as.map fun a => bs.countP (p a)).sum = (bs.map fun b => as.countP fun a => p a b).sum := by
  induction as with
  | nil => simp
  | cons a rest ih =>
    simp only [List.map_cons, List.sum_cons, List.countP_cons, ih, countP_eq_sum (p a)]
    rw [List.sum_map_add, Nat.add_comm]

/-- The goals in the lists of all teams are as many as the owners and shares of the goals. -/
theorem sum_length_goalsOf (h : m.Sound) (period : PeriodId) :
    (m.teams.keys.map fun team => (m.goalsOf team period).length).sum =
      ((m.goals.values.filter fun g => g.period == period).map fun g =>
        1 + (m.listShares g.id).length).sum := by
  have hlength : ∀ team, (m.goalsOf team period).length =
      (m.goals.values.filter fun g => g.period == period).countP (m.carries team) := by
    intro team
    rw [← List.length_map (f := TeamGoal.goal), (m.goals_goalsOf_perm team period).length_eq,
      List.countP_eq_length_filter, List.filter_filter]
    refine congrArg List.length (List.filter_congr ?_)
    intro g _
    exact Bool.and_comm ..
  simp only [hlength]
  rw [sum_countP_comm m.carries]
  refine congrArg List.sum (List.map_congr_left ?_)
  intro g hg
  have hget := h.ledger.goalKeyed.get?_of_mem (List.mem_filter.1 hg).1
  rw [List.countP_eq_length_filter, (perm_carriers h hget).length_eq, List.length_cons,
    List.length_map, Nat.add_comm]

/-! ### Sound rows -/

/-- What can be relied on in the list of teams of a goal that is shown. -/
structure ContributorsSound (m : Memory) (rows : List TeamSummary) (s : GoalSummary) : Prop where
  /-- No team is listed twice. -/
  once : (s.contributingTeams.map ContributingTeam.team).Nodup
  /-- The owner and the teams with a share are listed. -/
  carriers : ∀ g, m.goals.get? s.id = some g → ∀ team,
    team ∈ s.contributingTeams.map ContributingTeam.team ↔ m.carries team g = true
  /-- A team is listed under its own name. -/
  named : ∀ c ∈ s.contributingTeams, ∃ t, m.teams.get? c.team = some t ∧ c.name = t.name
  ordered : s.contributingTeams.Pairwise fun a b =>
    a.name < b.name ∨ (a.name = b.name ∧ a.team ≤ b.team)
  /-- One team is marked as the owner, and it is the owner. -/
  oneOwner : s.contributingTeams.countP ContributingTeam.isOwner = 1
  owner : ∀ g, m.goals.get? s.id = some g → ∀ c ∈ s.contributingTeams,
    (c.isOwner = true ↔ c.team = g.team)
  /-- A team is listed at the weight that its own row shows. -/
  ownRow : ∀ c ∈ s.contributingTeams, ∃ row ∈ rows, row.team = c.team ∧
    ∃ s' ∈ row.goals, s'.id = s.id ∧ s'.weight = c.weight

/-- What can be relied on in the rows of a period. -/
structure RowsSound (m : Memory) (period : PeriodId) (rows : List TeamSummary) : Prop where
  /-- Every team has one row. -/
  teams : (rows.map TeamSummary.team).Perm m.teams.keys
  /-- The goals in the rows are stored. -/
  stored : ∀ row ∈ rows, ∀ s ∈ row.goals, m.goals.contains s.id = true
  /-- A goal stands once in the rows of the teams that carry it, if it is of the period, and in no other
  row. -/
  listed : ∀ id g, m.goals.get? id = some g → ∀ row ∈ rows,
    (row.goals.map GoalSummary.id).count id =
      if g.period = period ∧ m.carries row.team g = true then 1 else 0
  /-- Every team that carries a goal has a row. -/
  carriers : ∀ id g team, m.goals.get? id = some g → m.carries team g = true →
    team ∈ rows.map TeamSummary.team
  /-- The owner's row shows the weight of the goal. -/
  ownerWeight : ∀ row ∈ rows, ∀ s ∈ row.goals, ∀ g, m.goals.get? s.id = some g →
    row.team = g.team → s.weight = g.weight
  /-- The row of any other team shows the weight of its share. -/
  shareWeight : ∀ row ∈ rows, ∀ s ∈ row.goals, ∀ g, m.goals.get? s.id = some g →
    row.team ≠ g.team → ∃ share, m.shares.get? (s.id, row.team) = some share ∧
      s.weight = share.weight
  /-- The goal is marked as owned in the owner's row alone. -/
  owned : ∀ row ∈ rows, ∀ s ∈ row.goals, ∀ g, m.goals.get? s.id = some g →
    (s.isOwned = true ↔ row.team = g.team)
  /-- All rows list the same teams with a goal. -/
  sameContributors : ∀ row ∈ rows, ∀ s ∈ row.goals, ∀ row' ∈ rows, ∀ s' ∈ row'.goals,
    s.id = s'.id → s.contributingTeams = s'.contributingTeams
  contributors : ∀ row ∈ rows, ∀ s ∈ row.goals, m.ContributorsSound rows s
  /-- Nothing is lost and nothing is counted twice. -/
  total : (rows.map TeamSummary.goalCount).sum =
    ((m.goals.values.filter fun g => g.period == period).map fun g =>
      1 + (m.listShares g.id).length).sum

/-! ### The rows of a walk -/

section Rows

variable {period : PeriodId} {indentUnit : Nat} {entries : List WalkEntry}

/-- What stands in the row of a team is what its list holds. -/
theorem exists_entry_of_mem_row (h : m.Ledger) {row : TeamSummary}
    (hrow : row ∈ entries.map (m.row indentUnit period)) {s : GoalSummary} (hs : s ∈ row.goals) :
    ∃ entry ∈ m.goalsOf row.team period, s = m.summary entry ∧ entry.team = row.team ∧
      m.goals.get? s.id = some entry.goal := by
  obtain ⟨e, -, rfl⟩ := List.mem_map.1 hrow
  obtain ⟨entry, hentry, rfl⟩ := List.mem_map.1 hs
  obtain ⟨hget, hlisted⟩ := get?_of_mem_goalsOf h hentry
  exact ⟨entry, hentry, rfl, (goal_of_listed hlisted).1, hget⟩

/-- In the list of a team that carries it, a goal of the period is found. -/
theorem exists_mem_goalsOf (h : m.Ledger) {team : TeamId} {id : GoalId} {g : Goal}
    (hget : m.goals.get? id = some g) (hperiod : g.period = period)
    (hcarries : m.carries team g = true) : ∃ entry ∈ m.goalsOf team period, entry.goal = g := by
  obtain ⟨entry, hentry, hid⟩ := List.mem_map.1 ((mem_goalsOf_iff h hget).2 ⟨hperiod, hcarries⟩)
  have hstored := (get?_of_mem_goalsOf h hentry).1
  rw [hid, hget, Option.some_inj] at hstored
  exact ⟨entry, hentry, hstored.symm⟩

/-- The teams that are listed with a stored goal. -/
theorem exists_contributors (h : m.Sound) {g : Goal} (hget : m.goals.get? g.id = some g) :
    ∃ teams : List Team, contributingTeams g (m.listShares g.id) m.hierarchy =
        teams.map (contributingTeam g (m.listShares g.id)) ∧
      (teams.map Team.id).Nodup ∧ (teams.Pairwise fun a b => Team.le a b = true) ∧
      (∀ t ∈ teams, m.teams.get? t.id = some t) ∧
      ∀ team, team ∈ teams.map Team.id ↔ m.carries team g = true := by
  have distinct : (m.teams.values.map Team.id).Nodup := h.nodup_teams
  obtain ⟨teams, heq, hnodup, hsorted, hmem⟩ := exists_contributingTeams_eq
    (Hierarchy.keyed_ofList m.teams.values) g (m.listShares g.id)
  refine ⟨teams, heq, hnodup, hsorted, ?_, ?_⟩
  · intro t ht
    exact h.teamsKeyed.get?_of_mem ((Hierarchy.mem_listed_ofList distinct).1 ((hmem t).1 ht).1)
  · intro team
    rw [List.mem_map, ← mem_carriers_iff h.ledger]
    constructor
    · rintro ⟨t, ht, rfl⟩
      exact ((hmem t).1 ht).2
    · intro hteam
      obtain ⟨t, ht⟩ := Table.mem_keys_iff.1
        (h.mem_keys_of_carries hget ((mem_carriers_iff h.ledger).1 hteam))
      have hid := h.teamsKeyed team t ht
      refine ⟨t, (hmem t).2 ⟨?_, by rwa [hid]⟩, hid⟩
      exact (Hierarchy.mem_listed_ofList distinct).2 (Table.mem_values_iff.2 ⟨team, ht⟩)

/-- The list of teams of a shown goal is sound, if every team has a row. -/
theorem contributorsSound (h : m.Sound)
    (hteams : ((entries.map (m.row indentUnit period)).map TeamSummary.team).Perm m.teams.keys)
    {team : TeamId} {entry : TeamGoal} (hentry : entry ∈ m.goalsOf team period) :
    m.ContributorsSound (entries.map (m.row indentUnit period)) (m.summary entry) := by
  obtain ⟨hget, -⟩ := get?_of_mem_goalsOf h.ledger hentry
  have hperiod : entry.goal.period = period :=
    ((mem_goalsOf_iff h.ledger hget).1 (List.mem_map_of_mem hentry)).1
  have hgoal : ∀ g, m.goals.get? (m.summary entry).id = some g → g = entry.goal := by
    intro g hg
    rw [show (m.summary entry).id = entry.goal.id from rfl, hget, Option.some_inj] at hg
    exact hg.symm
  obtain ⟨teams, heq, hnodup, hsorted, hstored, hcarry⟩ := exists_contributors h hget
  have hlist : (m.summary entry).contributingTeams =
      teams.map (contributingTeam entry.goal (m.listShares entry.goal.id)) := heq
  have hids : (m.summary entry).contributingTeams.map ContributingTeam.team =
      teams.map Team.id := by
    rw [hlist, List.map_map]
    rfl
  constructor
  case once => rwa [hids]
  case carriers =>
    intro g hg t
    rw [hids, hgoal g hg]
    exact hcarry t
  case named =>
    rw [hlist]
    intro c hc
    obtain ⟨t, ht, rfl⟩ := List.mem_map.1 hc
    exact ⟨t, hstored t ht, rfl⟩
  case ordered =>
    rw [hlist, List.pairwise_map]
    refine hsorted.imp fun {a b} hle => ?_
    simp only [Team.le, Bool.or_eq_true, Bool.and_eq_true, decide_eq_true_eq, beq_iff_eq] at hle
    exact hle
  case oneOwner =>
    rw [hlist, List.countP_map]
    have howner : (teams.map Team.id).count entry.goal.team = 1 :=
      List.count_eq_one_of_mem hnodup
        ((hcarry entry.goal.team).2 (carries_iff.2 (.inl rfl)))
    -- marks are counted by the identifiers, of which the owner's occurs once
    rw [List.count, List.countP_map] at howner
    rw [← howner]
    refine List.countP_congr fun t _ => ?_
    show (entry.goal.team == t.id) = true ↔ (t.id == entry.goal.team) = true
    rw [beq_iff_eq, beq_iff_eq, eq_comm]
  case owner =>
    intro g hg c hc
    rw [hgoal g hg]
    rw [hlist] at hc
    obtain ⟨t, -, rfl⟩ := List.mem_map.1 hc
    show (entry.goal.team == t.id) = true ↔ t.id = entry.goal.team
    rw [beq_iff_eq, eq_comm]
  case ownRow =>
    rw [hlist]
    intro c hc
    obtain ⟨t, ht, rfl⟩ := List.mem_map.1 hc
    have hcarries := (hcarry t.id).1 (List.mem_map_of_mem ht)
    have hkey := hteams.mem_iff.2 (h.mem_keys_of_carries hget hcarries)
    obtain ⟨row, hrow, hteam⟩ := List.mem_map.1 hkey
    obtain ⟨other, hother, hsame⟩ := exists_mem_goalsOf h.ledger hget hperiod hcarries
    refine ⟨row, hrow, hteam, m.summary other, ?_, congrArg Goal.id hsame, ?_⟩
    · obtain ⟨e, -, rfl⟩ := List.mem_map.1 hrow
      rw [← hteam] at hother
      exact List.mem_map_of_mem hother
    · rw [← hsame]
      exact weight_eq_effectiveWeight h.ledger hother

/-- The rows of a walk of all teams are sound. -/
theorem rowsSound_of_isWalk (h : m.Sound) (hw : Teams.IsWalk m.teams.values entries) :
    m.RowsSound period (entries.map (m.row indentUnit period)) := by
  have hteams : ((entries.map (m.row indentUnit period)).map TeamSummary.team).Perm
      m.teams.keys := by
    have hperm := hw.perm.map Team.id
    rw [h.teamsKeyed.map_values, List.map_map] at hperm
    rw [List.map_map]
    exact hperm
  constructor
  case teams => exact hteams
  case stored =>
    intro row hrow s hs
    obtain ⟨entry, -, -, -, hget⟩ := exists_entry_of_mem_row h.ledger hrow hs
    exact Table.contains_of_get? hget
  case listed =>
    intro id g hget row hrow
    have hids : row.goals.map GoalSummary.id =
        (m.goalsOf row.team period).map fun entry => entry.goal.id := by
      obtain ⟨e, -, rfl⟩ := List.mem_map.1 hrow
      exact List.map_map
    rw [hids, (nodup_goalsOf h.ledger row.team period).count]
    exact if_congr (mem_goalsOf_iff h.ledger hget) rfl rfl
  case carriers =>
    intro id g team hget hcarries
    exact hteams.mem_iff.2 (h.mem_keys_of_carries hget hcarries)
  case ownerWeight =>
    intro row hrow s hs g hget howner
    obtain ⟨entry, hentry, rfl, -, hstored⟩ := exists_entry_of_mem_row h.ledger hrow hs
    rw [hget, Option.some_inj] at hstored
    subst hstored
    have hnone : m.shares.get? (entry.goal.id, entry.goal.team) = none :=
      h.ledger.owner_unshared hget
    have hweight := weight_of_mem_goalsOf h.ledger hentry
    rw [howner, hnone] at hweight
    exact hweight
  case shareWeight =>
    intro row hrow s hs g hget hother
    obtain ⟨entry, hentry, rfl, -, hstored⟩ := exists_entry_of_mem_row h.ledger hrow hs
    rw [hget, Option.some_inj] at hstored
    have hcarries := ((mem_goalsOf_iff h.ledger hget).1 (List.mem_map_of_mem hentry)).2
    have hshare := (carries_iff.1 hcarries).resolve_left hother
    obtain ⟨share, hshare⟩ := Table.contains_iff.1 hshare
    have hid : g.id = (m.summary entry).id := h.ledger.goalKeyed _ g hget
    rw [hid] at hshare
    refine ⟨share, hshare, ?_⟩
    have hweight := weight_of_mem_goalsOf h.ledger hentry
    rw [show entry.goal.id = (m.summary entry).id from rfl, hshare] at hweight
    exact hweight
  case owned =>
    intro row hrow s hs g hget
    obtain ⟨entry, -, rfl, hteam, hstored⟩ := exists_entry_of_mem_row h.ledger hrow hs
    rw [hget, Option.some_inj] at hstored
    show (entry.goal.team == entry.team) = true ↔ row.team = g.team
    rw [hteam, hstored, beq_iff_eq, eq_comm]
  case sameContributors =>
    intro row hrow s hs row' hrow' s' hs' hid
    obtain ⟨entry, -, rfl, -, hget⟩ := exists_entry_of_mem_row h.ledger hrow hs
    obtain ⟨entry', -, rfl, -, hget'⟩ := exists_entry_of_mem_row h.ledger hrow' hs'
    rw [hid, hget', Option.some_inj] at hget
    show contributingTeams entry.goal _ _ = contributingTeams entry'.goal _ _
    rw [hget]
  case contributors =>
    intro row hrow s hs
    obtain ⟨entry, hentry, rfl, -, -⟩ := exists_entry_of_mem_row h.ledger hrow hs
    exact contributorsSound h hteams hentry
  case total =>
    -- a row counts what the list of its team holds, and the lists are counted by the goals
    have hcounts : (entries.map (m.row indentUnit period)).map TeamSummary.goalCount =
        ((entries.map (m.row indentUnit period)).map TeamSummary.team).map fun team =>
          (m.goalsOf team period).length := by
      rw [List.map_map, List.map_map, List.map_map]
      refine List.map_congr_left fun e _ => ?_
      exact List.length_map _
    rw [hcounts, (hteams.map _).sum_eq, sum_length_goalsOf h]

end Rows

/-- **In every store that can come about, with acyclic teams, the rows of a period are sound**, and
they are given without a change of the store. -/
theorem rowsSound_of_reachable {m : Memory} (h : m.Reachable) {period : PeriodId}
    (hperiod : m.periods.contains period = true) (hacyclic : Teams.Acyclic m.teams.values)
    (indentUnit : Nat) :
    ∃ rows, (Rollup.ofHierarchy indentUnit period none).run Memory.carry m = (.ok rows, m) ∧
      m.RowsSound period rows := by
  have hsound := h.sound
  have distinct : (m.teams.values.map Team.id).Nodup := by
    rw [hsound.teamsKeyed.map_values]
    exact m.teams.nodup_keys
  obtain ⟨entries, hw⟩ := (Hierarchy.exists_walk_ofList_iff distinct).2 hacyclic
  exact ⟨_, Rollup.ofHierarchy_answers hperiod hw indentUnit,
    rowsSound_of_isWalk hsound (Hierarchy.isWalk_ofList distinct hw)⟩

/-- A store with two teams and one goal, before the goal is shared. -/
def oneGoal : Memory :=
  let teams := ((Memory.empty.addTeam "Products" .unit none).2.addTeam "Search" .team (some 1)).2
  let start := (teams.createPeriod "Q1" ⟨2025, 1, 1⟩ ⟨2025, 3, 31⟩).2
  let draft : GoalDraft := ⟨"Grow", "", .p0, ⟨60, by decide⟩, .delivery, .stability, ""⟩
  ((Command.createGoal 1 3 draft).program.run Memory.carry start).2

/-- The goal in that store. -/
def grow : Goal := ⟨4, 1, 3, "Grow", "", .p0, ⟨60, by decide⟩, .delivery, .stability, "", 1⟩

/-- The same store after the first team has shared the goal with the second. -/
def oneShare : Memory :=
  ((Command.shareGoal 4 [⟨1, ⟨60, by decide⟩⟩, ⟨2, ⟨40, by decide⟩⟩]).program.run Memory.carry
    oneGoal).2

theorem rowsSound_oneShare :
    oneShare.Reachable ∧ oneShare.periods.contains 3 = true ∧
      Teams.Acyclic oneShare.teams.values ∧ oneShare.shares.keys = [(4, 2)] ∧
      ∃ rows, (Rollup.ofHierarchy 2 3 none).run Memory.carry oneShare = (.ok rows, oneShare) ∧
        oneShare.RowsSound 3 rows := by
  have hgoal : oneGoal.Reachable :=
    (((Reachable.empty.addTeam _ _ _).addTeam _ _ _).createPeriod _ _ _).run _
  have hreachable : oneShare.Reachable := hgoal.run _
  have hperiod : oneShare.periods.contains 3 = true := by rfl
  have hwalk : (Hierarchy.ofList oneShare.teams.values).walk none =
      .ok [⟨⟨1, "Products", .unit, none⟩, 0⟩, ⟨⟨2, "Search", .team, some 1⟩, 1⟩] := by rfl
  have distinct : (oneShare.teams.values.map Team.id).Nodup := by decide
  have hacyclic : Teams.Acyclic oneShare.teams.values :=
    (Hierarchy.exists_walk_ofList_iff distinct).1 ⟨_, hwalk⟩
  exact ⟨hreachable, hperiod, hacyclic, by rfl,
    rowsSound_of_reachable hreachable hperiod hacyclic 2⟩

end Memory

end Objectives
