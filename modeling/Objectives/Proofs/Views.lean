/- # The views of a team

A team is shown on a page of its own, in the rows of all teams, and in those below any team above
it.  A goal is shown on its own page and in the row of every team that carries it.  Each view reads
the store for itself.  The page of a team asks for one status where the rows ask for those of the
period, and the page of a goal averages what has been put together for each key result where a row
averages the key results.

Main definitions:

* `TeamSummary.SameStanding` — two rows differ in where they stand in a walk at most;
* `Memory.detail` — the page of a goal;
* `Memory.ShownBelow` — of the rows below a root one is that of a team, and says the same.

Main results:

* `Memory.row_eq` — in the rows a team has the status that it is given for itself;
* `GoalDetail.progress_assemble` — both averages over the key results are the same;
* `Rollup.ofTeam_answers`, `Rollup.goalDetail_answers` — the pages of a team and of a goal;
* `Memory.shownBelow_of_walk` — the rows of a walk show each team that is met, once and as on its page;
* `Memory.views_agree` — **in every store that can come about, with acyclic teams, all views agree**.
-/

import Objectives.Proofs.Handover

set_option relaxedAutoImplicit false
set_option autoImplicit false

namespace Objectives

/-- The rows say the same of a team, and differ at most in the depth and the indent at which it
stands. -/
def TeamSummary.SameStanding (s row : TeamSummary) : Prop :=
  row = { s with depth := row.depth, indent := row.indent }

/-- The progress on the page of a goal is that of its key results, whatever comments stand with
them. -/
theorem GoalDetail.progress_assemble (g : Goal) (status : Status) (keyResults : List KeyResult)
    (commentsOn : KeyResult → List Comment) (comments : List Comment)
    (teams : List ContributingTeam) :
    (assemble g status (keyResults.map fun k => k.view (commentsOn k)) comments teams).progress =
      Progress.ofKeyResults keyResults := by
  have hitems : (keyResults.map fun k => k.view (commentsOn k)).map
      (fun v => (v.progress, v.keyResult.weight)) =
        keyResults.map fun k => (Progress.ofKeyResult k, k.weight) := List.map_map
  show Progress.average _ = Progress.average _
  rw [hitems]

namespace Memory

/-- The page of a goal. -/
def detail (m : Memory) (g : Goal) : GoalDetail :=
  GoalDetail.assemble g (m.statusOf g.team g.period)
    ((m.listKeyResults g.id).map fun k => k.view (m.listComments (.keyResult k.id)))
    (m.listComments (.goal g.id)) (contributingTeams g (m.listShares g.id) m.hierarchy)

/-- The rows below a root, or of all teams, are given.  One of them is of the team of a summary, and
says the same. -/
def ShownBelow (m : Memory) (indentUnit : Nat) (period : PeriodId) (root : Option TeamId)
    (s : TeamSummary) : Prop :=
  ∃ rows, (Rollup.ofHierarchy indentUnit period root).run carry m = (.ok rows, m) ∧
    (rows.countP fun row => row.team == s.team) = 1 ∧
    ∀ row ∈ rows, row.team = s.team → s.SameStanding row

/-- The status in a row, taken from those of the period, is the status of the team. -/
theorem row_eq (m : Memory) (indentUnit : Nat) (period : PeriodId) (e : WalkEntry) :
    m.row indentUnit period e = TeamSummary.aggregate e.team e.depth indentUnit
      (m.statusOf e.team.id period) ((m.goalsOf e.team.id period).map m.summary) := by
  rw [row, get?_listStatuses, statusOf]

end Memory

/-! ### Pages -/

namespace Rollup

open Program (Answers)

variable {m : Memory}

/-- The page of a team is its row at the start of a walk. -/
theorem ofTeam_answers (h : m.Sound) {period : PeriodId}
    (hperiod : m.periods.contains period = true) {t : Team} (ht : t ∈ m.teams.values) :
    (ofTeam t.id period).Answers m (m.row 0 period ⟨t, 0⟩) := by
  obtain ⟨p, hp⟩ := Table.contains_iff.1 hperiod
  refine (requirePeriod_answers hp).bind (hierarchy_answers.bind ?_)
  have hteam : (Program.expect (.teamMissing t.id) (m.hierarchy.get? t.id)).Answers m t := by
    have hget : m.hierarchy.get? t.id = some t :=
      (Hierarchy.get?_ofList_eq_some_iff h.nodup_teams).2 ⟨ht, rfl⟩
    rw [hget]
    exact .done t
  have hstatus : (Program.ask (.status t.id period)).Answers m (m.statusOf t.id period) := .ask rfl
  refine hteam.bind (hstatus.bind ((goalSummaries_answers t.id period).bind ?_))
  -- the page has asked for one status, the row looks it up among those of the period
  rw [m.row_eq]
  exact .done _

theorem goalDetail_answers {id : GoalId} {g : Goal} (hget : m.goals.get? id = some g) :
    (goalDetail id).Answers m (m.detail g) := by
  have hviews : (Program.each
      (fun k : KeyResult => (Program.ask (.comments (.keyResult k.id))).bind fun comments =>
        .done (k.view comments)) (m.listKeyResults g.id)).Answers m
      ((m.listKeyResults g.id).map fun k => k.view (m.listComments (.keyResult k.id))) :=
    .each fun k _ => Answers.bind (.ask rfl) (.done _)
  refine (Memory.requireGoal_answers hget).bind (Answers.bind (.ask rfl) (hviews.bind ?_))
  exact hierarchy_answers.bind (.bind (.ask rfl) (.bind (.ask rfl) (.bind (.ask rfl) (.done _))))

end Rollup

/-! ### Rows -/

namespace Memory

section Rows

variable {m : Memory} {period : PeriodId}

/-- The rows of a walk show a team that is met.  It is met once, so no other row is taken for its. -/
theorem shownBelow_of_walk (hperiod : m.periods.contains period = true) {root : Option TeamId}
    {entries : List WalkEntry} (hw : m.hierarchy.walk root = .ok entries)
    (distinct : (entries.map fun e => e.team.id).Nodup) {t : Team}
    (ht : t ∈ entries.map WalkEntry.team) (indentUnit : Nat) :
    m.ShownBelow indentUnit period root (m.row 0 period ⟨t, 0⟩) := by
  obtain ⟨e, he, rfl⟩ := List.mem_map.1 ht
  refine ⟨_, Rollup.ofHierarchy_answers hperiod hw indentUnit, ?_, ?_⟩
  · -- rows are counted by their teams, of which each is met once
    have hone : (entries.map fun e => e.team.id).count e.team.id = 1 :=
      List.count_eq_one_of_mem distinct (List.mem_map_of_mem he)
    rw [List.count, List.countP_map] at hone
    rw [List.countP_map]
    exact hone
  · intro row hrow hteam
    obtain ⟨e', he', rfl⟩ := List.mem_map.1 hrow
    have hid : e'.team.id = e.team.id := hteam
    rw [List.inj_on_of_nodup_map distinct he' he hid]
    rfl

/-- The rows of all teams show every team. -/
theorem shownBelow_none (h : m.Sound) (hperiod : m.periods.contains period = true)
    (hacyclic : Teams.Acyclic m.teams.values) {t : Team} (ht : t ∈ m.teams.values)
    (indentUnit : Nat) : m.ShownBelow indentUnit period none (m.row 0 period ⟨t, 0⟩) := by
  obtain ⟨entries, hw⟩ := (Hierarchy.exists_walk_ofList_iff h.nodup_teams).2 hacyclic
  have hperm := (Hierarchy.isWalk_ofList h.nodup_teams hw).perm
  have distinct : (entries.map fun e => e.team.id).Nodup := by
    have hids := (hperm.map Team.id).nodup_iff.2 h.nodup_teams
    rwa [List.map_map] at hids
  exact shownBelow_of_walk hperiod hw distinct (hperm.mem_iff.2 ht) indentUnit

/-- The rows below a team show that team and all that are below it. -/
theorem shownBelow_some (h : m.Sound) (hperiod : m.periods.contains period = true)
    (hacyclic : Teams.Acyclic m.teams.values) {root t : Team} (hroot : root ∈ m.teams.values)
    (hbelow : root = t ∨ Teams.Ancestor m.teams.values root t) (indentUnit : Nat) :
    m.ShownBelow indentUnit period (some root.id) (m.row 0 period ⟨t, 0⟩) := by
  obtain ⟨entries, hw, distinct, hlisted⟩ :=
    Hierarchy.exists_walk_ofList_some h.nodup_teams hacyclic hroot
  refine shownBelow_of_walk hperiod hw distinct ((hlisted t).2 ?_) indentUnit
  exact Relation.reflTransGen_iff_eq_or_transGen.2 (hbelow.imp_left Eq.symm)

/-- The page of a goal in a list shows the progress and the teams that the list shows. -/
theorem detail_of_mem_goalsOf (h : m.Ledger) {team : TeamId} {entry : TeamGoal}
    (hentry : entry ∈ m.goalsOf team period) :
    ∃ d, (Rollup.goalDetail (m.summary entry).id).run carry m = (.ok d, m) ∧
      d.goal.id = (m.summary entry).id ∧ d.progress = (m.summary entry).progress ∧
      d.contributingTeams = (m.summary entry).contributingTeams := by
  have hget : m.goals.get? entry.goal.id = some entry.goal := (get?_of_mem_goalsOf h hentry).1
  exact ⟨m.detail entry.goal, Rollup.goalDetail_answers hget, rfl,
    GoalDetail.progress_assemble .., rfl⟩

end Rows

/-- **In every store that can come about, with acyclic teams, all views of a team agree**: its own page,
the rows of all teams, those below it and below each team above it.  The pages of its goals show the
progress and the teams that its row shows. -/
theorem views_agree {m : Memory} (h : m.Reachable) {period : PeriodId}
    (hperiod : m.periods.contains period = true) (hacyclic : Teams.Acyclic m.teams.values)
    {t : Team} (ht : t ∈ m.teams.values) (indentUnit : Nat) :
    ∃ s, (Rollup.ofTeam t.id period).run carry m = (.ok s, m) ∧ s.team = t.id ∧
      m.ShownBelow indentUnit period none s ∧
      (∀ root ∈ m.teams.values, (root = t ∨ Teams.Ancestor m.teams.values root t) →
        m.ShownBelow indentUnit period (some root.id) s) ∧
      ∀ g ∈ s.goals, ∃ d, (Rollup.goalDetail g.id).run carry m = (.ok d, m) ∧
        d.goal.id = g.id ∧ d.progress = g.progress ∧ d.contributingTeams = g.contributingTeams := by
  have hsound := h.sound
  refine ⟨m.row 0 period ⟨t, 0⟩, Rollup.ofTeam_answers hsound hperiod ht, rfl,
    shownBelow_none hsound hperiod hacyclic ht indentUnit, ?_, ?_⟩
  · intro root hroot hbelow
    exact shownBelow_some hsound hperiod hacyclic hroot hbelow indentUnit
  · intro g hg
    obtain ⟨entry, hentry, rfl⟩ := List.mem_map.1 hg
    exact detail_of_mem_goalsOf hsound.ledger hentry

/-- The second of two teams has a share in the goal of the first, which is above it. -/
theorem views_agree_oneShare :
    let search : Team := ⟨2, "Search", .team, some 1⟩
    let products : Team := ⟨1, "Products", .unit, none⟩
    oneShare.Reachable ∧ oneShare.periods.contains 3 = true ∧
      Teams.Acyclic oneShare.teams.values ∧
      Teams.Ancestor oneShare.teams.values products search ∧
      ∃ s, (Rollup.ofTeam 2 3).run carry oneShare = (.ok s, oneShare) ∧
        s.goals.map GoalSummary.id = [4] ∧ oneShare.ShownBelow 2 3 none s ∧
        oneShare.ShownBelow 2 3 (some 1) s ∧
        ∀ g ∈ s.goals, ∃ d, (Rollup.goalDetail g.id).run carry oneShare = (.ok d, oneShare) ∧
          d.goal.id = g.id ∧ d.progress = g.progress ∧
          d.contributingTeams = g.contributingTeams := by
  intro search products
  have hperiod : oneShare.periods.contains 3 = true := by rfl
  have hteams : oneShare.teams.values = [products, search] := by rfl
  have hwalk : (Hierarchy.ofList oneShare.teams.values).walk none =
      .ok [⟨products, 0⟩, ⟨search, 1⟩] := by rfl
  have hacyclic : Teams.Acyclic oneShare.teams.values :=
    (Hierarchy.exists_walk_ofList_iff reachable_oneShare.sound.nodup_teams).1 ⟨_, hwalk⟩
  have hsearch : search ∈ oneShare.teams.values := by simp [hteams]
  have hproducts : products ∈ oneShare.teams.values := by simp [hteams]
  have habove : Teams.Ancestor oneShare.teams.values products search :=
    .single ⟨hproducts, hsearch, rfl⟩
  obtain ⟨s, hrun, -, hall, hbelow, hpages⟩ :=
    views_agree reachable_oneShare hperiod hacyclic hsearch 2
  have hgoals : s.goals.map GoalSummary.id = [4] := by
    have hrow : (Rollup.ofTeam 2 3).run carry oneShare =
        (.ok (oneShare.row 0 3 ⟨search, 0⟩), oneShare) :=
      Rollup.ofTeam_answers reachable_oneShare.sound hperiod hsearch
    rw [hrow] at hrun
    cases hrun
    rfl
  exact ⟨reachable_oneShare, hperiod, hacyclic, habove, s, hrun, hgoals, hall,
    hbelow products hproducts (.inr habove), hpages⟩

end Memory

end Objectives
