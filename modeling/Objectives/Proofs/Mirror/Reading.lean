/- # What mirrors answer

A store in memory and a database that mirror each other are read in lockstep: the checks of a command
and the queries have the same outcome on both, up to identifiers.

Main results:

* `Mirror.requireGoal`, `Mirror.requireKeyResult`, `Mirror.requireOpen`, … — the checks;
* `Mirror.askShares`, `Mirror.askGoalsOf`, `Mirror.askKeyResultsOf` — the lists, in their order;
* `Mirror.shareCandidates`, `Mirror.ofTeam`, `Mirror.goalDetail` — **the queries**.
-/

import Objectives.Proofs.Contributors
import Objectives.Proofs.Mirror

set_option relaxedAutoImplicit false
set_option autoImplicit false

namespace Objectives

variable {ρ : Renaming}

/-- Values that are related are related in another way, where they have been found. -/
theorem rel_imp {α β : Type} {R S : α → β → Prop} {x : Option α} {y : Option β} (h : Option.Rel R x y)
    (hRS : ∀ a b, x = some a → R a b → S a b) : Option.Rel S x y := by
  cases h with
  | none => exact .none
  | some h => exact .some (hRS _ _ rfl h)

/-! ### Records alike -/

theorem Goal.Like.isOwnedBy {g g' : Goal} (h : g.Like ρ g') (team : TeamId) :
    g'.isOwnedBy team = g.isOwnedBy team := by
  rw [h.2]
  rfl

theorem Goal.Like.team {g g' : Goal} (h : g.Like ρ g') : g'.team = g.team := by
  rw [h.2]

theorem Goal.Like.period {g g' : Goal} (h : g.Like ρ g') : g'.period = g.period := by
  rw [h.2]

theorem Goal.Like.weight {g g' : Goal} (h : g.Like ρ g') : g'.weight = g.weight := by
  rw [h.2]

section Shares

variable {shares shares' : List Share} (h : List.Forall₂ (Share.Like ρ) shares shares')

include h

/-- Whether a team has a share does not depend on identifiers. -/
theorem any_team_of_like (team : TeamId) :
    (shares'.any fun s => s.team == team) = shares.any fun s => s.team == team := by
  have hteams : shares.map (fun s => s.team == team) = shares'.map fun s => s.team == team :=
    map_eq_of_alike h fun s s' hs => by rw [hs.2]
  have hany {l : List Share} :
      (l.any fun s => s.team == team) = (l.map fun s => s.team == team).any id := by
    rw [List.any_map]
    rfl
  rw [hany, hany, hteams]

/-- The weight of a goal for a team does not depend on identifiers. -/
theorem effectiveWeight_of_like {g g' : Goal} (hg : g.Like ρ g') (team : TeamId) :
    effectiveWeight g' team shares' = effectiveWeight g team shares := by
  have hfind : (shares'.find? fun s => s.team == team).map Share.weight =
      (shares.find? fun s => s.team == team).map Share.weight := by
    induction h with
    | nil => rfl
    | @cons s s' l l' hs _ ih =>
      obtain ⟨-, hs⟩ := hs
      rw [hs, List.find?_cons, List.find?_cons]
      dsimp only
      split
      · rfl
      · exact ih
  rw [effectiveWeight_eq, effectiveWeight_eq, hfind, hg.isOwnedBy, hg.weight]

/-- The teams that carry a goal do not depend on identifiers. -/
theorem contributingTeams_of_like {g g' : Goal} (hg : g.Like ρ g') (hierarchy : Hierarchy) :
    contributingTeams g' shares' hierarchy = contributingTeams g shares hierarchy := by
  have hteams : shares.map Share.team = shares'.map Share.team :=
    map_eq_of_alike h fun s s' hs => by rw [hs.2]
  unfold contributingTeams
  rw [← hteams, hg.team]
  refine List.map_congr_left fun team _ => ?_
  simp only [contributingTeam, effectiveWeight_of_like h hg, hg.isOwnedBy]

end Shares

/-! ### Goals of a team in rows -/

/-- A goal in the list of a team is in what the database lists for the team. -/
structure ListedIn (ρ : Renaming) (team : TeamId) (t : TeamGoal) (l : Session.ListedRow) : Prop where
  id : ρ.goals.Pairs t.goal.id l.id
  row : l.row = .ofGoal t.goal
  weight : l.weight = t.weight.value
  order : l.sortOrder = t.sortOrder
  team : t.team = team

namespace ListedIn

variable {team : TeamId}

theorem before {a b : TeamGoal} {a' b' : Session.ListedRow} (ha : ListedIn ρ team a a')
    (hb : ListedIn ρ team b b') : Memory.listedBefore a b = Session.listedBefore a' b' := by
  have hid : a.goal.id ≤ b.goal.id ↔ a'.id ≤ b'.id := by
    rw [← Int.not_lt, ← Int.not_lt, ρ.goals.mono hb.id ha.id]
  rw [Memory.listedBefore, Session.listedBefore, ha.order, hb.order, decide_eq_decide.2 hid]

theorem read {t : TeamGoal} {l : Session.ListedRow} (h : ListedIn ρ team t l) :
    ∃ t', Session.readListed team l = .ok t' ∧ t.Like ρ t' := by
  refine ⟨{ t with goal := { t.goal with id := l.id } }, ?_, ⟨h.id, rfl⟩, rfl⟩
  have hgoal : l.row.read l.id = .ok { t.goal with id := l.id } := by
    rw [h.row]
    exact GoalRow.read_ofGoal { t.goal with id := l.id }
  simp only [Session.readListed, hgoal, h.weight, Column.weight_value, h.order, h.team]
  rfl

end ListedIn

namespace Mirror

variable {m : Memory} {db : Contents} (h : Mirror ρ m db)

include h

/-! ### The checks -/

theorem requireTeam (id : TeamId) :
    ReadsAlike m db (fun t t' => t' = t ∧ m.teams.get? id = some t) (requireTeam id)
      (requireTeam id) := by
  have hask : ReadsAlike m db
      (fun (found found' : Option Team) => found' = found ∧ found = m.teams.get? id)
      (Program.ask (.team id)) (Program.ask (.team id)) :=
    .ask (.team id) (.team id) rfl (h.team id) ⟨rfl, rfl⟩
  refine hask.bind fun found found' hfound _ => .expect rfl rfl ?_
  obtain ⟨rfl, rfl⟩ := hfound
  cases m.teams.get? id with
  | none => exact .none
  | some t => exact .some ⟨rfl, rfl⟩

theorem requirePeriod (id : PeriodId) :
    ReadsAlike m db (fun p p' => p' = p ∧ m.periods.get? id = some p) (requirePeriod id)
      (requirePeriod id) := by
  have hask : ReadsAlike m db
      (fun (found found' : Option Period) => found' = found ∧ found = m.periods.get? id)
      (Program.ask (.period id)) (Program.ask (.period id)) :=
    .ask (.period id) (.period id) rfl (h.period id) ⟨rfl, rfl⟩
  refine hask.bind fun found found' hfound _ => .expect rfl rfl ?_
  obtain ⟨rfl, rfl⟩ := hfound
  cases m.periods.get? id with
  | none => exact .none
  | some p => exact .some ⟨rfl, rfl⟩

theorem askStatus (team : TeamId) (period : PeriodId) :
    ReadsAlike m db (fun (s s' : Status) => s' = s) (Program.ask (.status team period))
      (Program.ask (.status team period)) :=
  .ask (.status team period) (.status team period) rfl (h.status team period) rfl

theorem askStatuses (period : PeriodId) :
    ReadsAlike m db (fun (s s' : Table TeamId Status) => s' = s) (Program.ask (.statuses period))
      (Program.ask (.statuses period)) :=
  .ask (.statuses period) (.statuses period) rfl (h.statusesOf period) rfl

theorem requireOpen (team : TeamId) (period : PeriodId) (action : Action) :
    ReadsAlike m db (fun s s' => s' = s) (requireOpen team period action)
      (requireOpen team period action) := by
  refine (h.askStatus team period).bind fun s s' hs _ => ?_
  subst hs
  split
  · exact .fail rfl rfl
  · exact .done rfl

section Goals

variable {i j : GoalId}

theorem goal_get? (hij : ρ.SameGoal m db i j) :
    Option.Rel (fun g row => Goal.In ρ (i, g) (j, row)) (m.goals.get? i) (db.rows.goals.get? j) :=
  h.goals.get?_corresponding (fun he => he.1) hij

theorem contains_goal (hij : ρ.goals.Pairs i j) :
    db.rows.goals.contains j = m.goals.contains i :=
  (h.goals.contains fun he => ρ.goals.eq_iff he.1 hij).symm

theorem share_get? (hij : ρ.goals.Pairs i j) (team : TeamId) :
    Option.Rel (fun s row => Share.In ρ ((i, team), s) ((j, team), row)) (m.shares.get? (i, team))
      (db.rows.shares.get? (j, team)) :=
  h.shares.get? fun he => by
    rw [Prod.ext_iff, Prod.ext_iff, ρ.goals.eq_iff he.1.1 hij, he.1.2]

theorem goal (hij : ρ.SameGoal m db i j) : ∃ found', Session.findGoal j .standard db = (.ok found', db) ∧
    Option.Rel (fun g g' => g.Like ρ g' ∧ g.id = i ∧ g'.id = j) (m.goals.get? i) found' := by
  rw [Session.findGoal_run]
  have hget := h.goal_get? hij
  generalize m.goals.get? i = found, db.rows.goals.get? j = found' at hget
  cases hget with
  | none => exact ⟨none, rfl, .none⟩
  | @some g row he =>
    obtain ⟨g', hread, hlike, hid⟩ := he.read
    refine ⟨some g', ?_, .some ⟨hlike, he.2.1, hid⟩⟩
    have hread : row.read j = .ok g' := hread
    rw [Option.mapM_some, hread]
    rfl

/-- A goal is required of both stores under identifiers that stand for the same. -/
theorem requireGoal (hij : ρ.SameGoal m db i j) :
    ReadsAlike m db (fun g g' => g.Like ρ g' ∧ m.goals.get? g.id = some g) (requireGoal i)
      (requireGoal j) := by
  obtain ⟨found', hfind, hrel⟩ := h.goal hij
  have hask : ReadsAlike m db (fun (x : Option Goal) (y : Option Goal) =>
      Option.Rel (fun g g' => g.Like ρ g' ∧ m.goals.get? g.id = some g) x y)
      (Program.ask (.goal i)) (Program.ask (.goal j)) := by
    refine .ask (.goal i) (.goal j) rfl hfind (rel_imp hrel ?_)
    rintro g g' hget ⟨hlike, hi, -⟩
    exact ⟨hlike, hi ▸ hget⟩
  exact hask.bind fun found found' hfound _ => .expect (by rfl) (by rfl) hfound

/-- The shares in a goal are listed in the same order. -/
theorem askShares (hij : ρ.goals.Pairs i j) :
    ReadsAlike m db (fun (l l' : List Share) => List.Forall₂ (Share.Like ρ) l l' ∧ l = m.listShares i)
      (Program.ask (.shares i)) (Program.ask (.shares j)) := by
  have hown := h.shares.filter (p := fun key _ => key.1 == i) (q := fun key _ => key.1 == j)
    fun {e e'} he => by
      have hiff := ρ.goals.eq_iff he.1.1 hij
      rw [Bool.eq_iff_iff, beq_iff_eq, beq_iff_eq, hiff]
  obtain ⟨list, hread, hlist⟩ := mapM_alike (S := fun e s' => e.2.Like ρ s')
    (f := fun e : (GoalId × TeamId) × ShareRow => e.2.read e.1) hown fun e e' he => he.read
  have hlisted : Session.listShares j .standard db = (.ok list, db) := by
    rw [Session.listShares_run]
    exact congrArg (·, db) hread
  exact .ask (.shares i) (.shares j) rfl hlisted ⟨List.forall₂_map_left_iff.2 hlist, rfl⟩

end Goals

/-! ### Lists of goals and of key results -/

/-- What the two stores list for a team of a goal, if anything. -/
theorem listedIn (team : TeamId) {g : Goal} {e' : GoalId × GoalRow} (hg : Goal.In ρ (g.id, g) e') :
    Option.Rel (ListedIn ρ team) (m.listed team g) (Session.listedRow db.rows team e') := by
  have hshare := h.share_get? hg.1 team
  have hteam : e'.2.team = g.team := by rw [hg.2.2]; rfl
  unfold Memory.listed Session.listedRow
  generalize m.shares.get? (g.id, team) = found, db.rows.shares.get? (e'.1, team) = found' at hshare
  cases hshare with
  | some hs =>
    obtain ⟨-, -, rfl⟩ := hs
    exact .some ⟨hg.1, hg.2.2, rfl, rfl, rfl⟩
  | none =>
    rw [hteam]
    show Option.Rel _ (if g.team == team then _ else _) (if g.team == team then _ else _)
    split
    · exact .some ⟨hg.1, hg.2.2, by rw [hg.2.2]; rfl, by rw [hg.2.2]; rfl, rfl⟩
    · exact .none

/-- The goals that a team carries in a period are listed in the same order. -/
theorem askGoalsOf (team : TeamId) (period : PeriodId) :
    ReadsAlike m db (fun (l l' : List TeamGoal) => List.Forall₂ (TeamGoal.Like ρ) l l')
      (Program.ask (.goalsOf team period)) (Program.ask (.goalsOf team period)) := by
  have hperiod : List.Forall₂ (fun g e' => Goal.In ρ (g.id, g) e')
      (m.goals.values.filter fun g => g.period == period)
      (db.rows.goals.filter fun _ row => row.period == period).entries := by
    rw [Table.filter_values]
    refine Table.Alike.values (h.goals.filter fun {e e'} he => ?_) fun {e e'} he => ?_
    · rw [he.2.2]
      rfl
    · rw [he.2.1]
      exact he
  have hlisted := List.rel_filterMap (P := ListedIn ρ team) (fun g e' hg => h.listedIn team hg) hperiod
  have hsorted := sortBy_alike (r := Memory.listedBefore) (s := Session.listedBefore)
    (fun ha hb => ha.before hb) hlisted
  obtain ⟨list, hread, hlist⟩ := mapM_alike (S := TeamGoal.Like ρ) hsorted fun t l ht => ht.read
  refine .ask (.goalsOf team period) (.goalsOf team period) rfl ?_ hlist
  exact (Session.goalsOf_run team period).trans (congrArg (·, db) hread)

section KeyResults

variable {i j : Int}

/-- The key results of a goal are listed in the same order. -/
theorem askKeyResultsOf (hij : ρ.goals.Pairs i j) :
    ReadsAlike m db (fun (l l' : List KeyResult) => List.Forall₂ (KeyResult.Like ρ) l l')
      (Program.ask (.keyResultsOf i)) (Program.ask (.keyResultsOf j)) := by
  have hown : List.Forall₂ (fun k e' => KeyResult.In ρ db.rows (k.id, k) e') (m.keyResultsIn i)
      (db.rows.keyResults.filter fun _ row => row.goal == j).entries := by
    rw [Memory.keyResultsIn, Table.filter_values]
    refine Table.Alike.values (h.keyResults.filter fun {e e'} he => ?_) fun {e e'} he => ?_
    · rw [Bool.eq_iff_iff, beq_iff_eq, beq_iff_eq, ρ.goals.eq_iff he.goal hij]
    · rw [he.own]
      exact he
  have hsorted := sortBy_alike
    (r := fun (a b : KeyResult) => a.sortOrder < b.sortOrder ||
      (a.sortOrder == b.sortOrder && a.id ≤ b.id))
    (s := orderedBefore KeyResultRow.sortOrder)
    (fun {a a' b b'} ha hb => by
      have hid : a.id ≤ b.id ↔ a'.1 ≤ b'.1 := by
        rw [← Int.not_lt, ← Int.not_lt, ρ.keyResults.mono hb.key ha.key]
      simp only [orderedBefore]
      rw [ha.row, hb.row, decide_eq_decide.2 hid]) hown
  obtain ⟨list, hread, hlist⟩ := mapM_alike (S := KeyResult.Like ρ)
    (f := fun e : KeyResultId × KeyResultRow => db.rows.keyResultOf e.1 e.2) hsorted
    fun k e' hk => by
      obtain ⟨k', hread, hlike, -⟩ := hk.read
      exact ⟨k', hread, hlike⟩
  have hlisted : Session.listKeyResults j .standard db = (.ok list, db) := by
    rw [Session.listKeyResults_run]
    exact congrArg (·, db) hread
  exact .ask (.keyResultsOf i) (.keyResultsOf j) rfl hlisted hlist

theorem keyResult_get? (hij : ρ.SameKeyResult m db i j) :
    Option.Rel (fun k row => KeyResult.In ρ db.rows (i, k) (j, row)) (m.keyResults.get? i)
      (db.rows.keyResults.get? j) :=
  h.keyResults.get?_corresponding (fun he => he.key) hij

/-- A key result is read from both stores under identifiers that stand for the same. -/
theorem keyResult (hij : ρ.SameKeyResult m db i j) :
    ∃ found', Session.loadKeyResult j .standard db = (.ok found', db) ∧
      Option.Rel (fun k k' => k.Like ρ k' ∧ k.id = i ∧ k'.id = j) (m.keyResults.get? i) found' := by
  rw [Session.loadKeyResult_run]
  have hget := h.keyResult_get? hij
  generalize m.keyResults.get? i = found, db.rows.keyResults.get? j = found' at hget
  cases hget with
  | none => exact ⟨none, rfl, .none⟩
  | @some k row he =>
    obtain ⟨k', hread, hlike, hid⟩ := he.read
    refine ⟨some k', ?_, .some ⟨hlike, he.own, hid⟩⟩
    have hread : db.rows.keyResultOf j row = .ok k' := hread
    rw [Option.mapM_some, hread]
    rfl

/-- A key result and its goal are required of both stores under identifiers that stand for the
same. -/
theorem requireKeyResult (hij : ρ.SameKeyResult m db i j) :
    ReadsAlike m db
      (fun found found' => found.1.Like ρ found'.1 ∧ found.2.Like ρ found'.2 ∧
        m.keyResults.get? found.1.id = some found.1)
      (requireKeyResult i) (requireKeyResult j) := by
  obtain ⟨found', hfind, hrel⟩ := h.keyResult hij
  have hask : ReadsAlike m db (fun (x : Option KeyResult) (y : Option KeyResult) =>
      Option.Rel (fun k k' => k.Like ρ k' ∧ m.keyResults.get? k.id = some k) x y)
      (Program.ask (.keyResult i)) (Program.ask (.keyResult j)) := by
    refine .ask (.keyResult i) (.keyResult j) rfl hfind (rel_imp hrel ?_)
    rintro k k' hget ⟨hlike, hi, -⟩
    exact ⟨hlike, hi ▸ hget⟩
  refine hask.bind fun found found' hfound _ => ?_
  refine (ReadsAlike.expect (by rfl) (by rfl) hfound).bind fun k k' hk _ => ?_
  refine (h.requireGoal (.of_pairs hk.1.goal)).bind fun g g' hg _ => ?_
  exact .done ⟨hk.1, hg.1, hk.2⟩

end KeyResults

/-- There are no comments in either store. -/
theorem askComments (target target' : CommentTarget) :
    ReadsAlike m db (fun (l l' : List Comment) => l = [] ∧ l' = []) (Program.ask (.comments target))
      (Program.ask (.comments target')) := by
  refine .ask (.comments target) (.comments target') rfl (Session.listComments_run target')
    ⟨?_, ?_⟩
  · rw [Memory.listComments, h.comments]
    rfl
  · cases target' with
    | goal id =>
      rw [Rows.commentsOn, h.goalComments]
      rfl
    | keyResult id =>
      rw [Rows.commentsOn, h.keyResultComments]
      rfl

/-! ### The queries -/

end Mirror

section Queries

variable (ρ)

/-- The goals differ in their identifiers at most. -/
def GoalSummary.Like (s s' : GoalSummary) : Prop :=
  ρ.goals.Pairs s.id s'.id ∧ s' = { s with id := s'.id }

/-- The rows of the team differ at most in the identifiers of its goals. -/
def TeamSummary.Like (t t' : TeamSummary) : Prop :=
  List.Forall₂ (GoalSummary.Like ρ) t.goals t'.goals ∧ t' = { t with goals := t'.goals }

/-- The key results as shown differ at most in identifiers. -/
def KeyResultView.Like (v v' : KeyResultView) : Prop :=
  v.keyResult.Like ρ v'.keyResult ∧ v' = { v with keyResult := v'.keyResult }

/-- The pages of the goal differ at most in identifiers. -/
structure GoalDetail.Like (d d' : GoalDetail) : Prop where
  goal : d.goal.Like ρ d'.goal
  keyResults : List.Forall₂ (KeyResultView.Like ρ) d.keyResults d'.keyResults
  rest : d' = { d with goal := d'.goal, keyResults := d'.keyResults }

end Queries

/-- Key results alike make the same progress. -/
theorem ofKeyResults_of_like {l l' : List KeyResult} (h : List.Forall₂ (KeyResult.Like ρ) l l') :
    Progress.ofKeyResults l' = Progress.ofKeyResults l := by
  unfold Progress.ofKeyResults
  rw [map_eq_of_alike h fun k k' hk => by rw [← hk.progress, ← hk.weight]]

/-- The row of a team is put together in the same way. -/
theorem aggregate_like {team : Team} {depth unit : Nat} {status : Status} {l l' : List GoalSummary}
    (h : List.Forall₂ (GoalSummary.Like ρ) l l') :
    (TeamSummary.aggregate team depth unit status l).Like ρ
      (TeamSummary.aggregate team depth unit status l') := by
  have hprogress : l.map (fun g => (g.progress, g.weight)) = l'.map fun g => (g.progress, g.weight) :=
    map_eq_of_alike h fun s s' hs => by rw [hs.2]
  have hweights : l.map (fun g => g.weight.value) = l'.map fun g => g.weight.value :=
    map_eq_of_alike h fun s s' hs => by rw [hs.2]
  refine ⟨h, ?_⟩
  unfold TeamSummary.aggregate
  rw [hprogress, hweights, h.length_eq]

/-- The page of a goal is put together in the same way. -/
theorem assemble_like {g g' : Goal} {status : Status} {v v' : List KeyResultView}
    {comments : List Comment} {teams : List ContributingTeam} (hg : g.Like ρ g')
    (hv : List.Forall₂ (KeyResultView.Like ρ) v v') :
    (GoalDetail.assemble g status v comments teams).Like ρ
      (GoalDetail.assemble g' status v' comments teams) := by
  have hprogress : v.map (fun k => (k.progress, k.keyResult.weight)) =
      v'.map fun k => (k.progress, k.keyResult.weight) :=
    map_eq_of_alike hv fun a b hab => by rw [hab.2, ← hab.1.weight]
  refine ⟨hg, hv, ?_⟩
  unfold GoalDetail.assemble
  rw [hprogress]

namespace Mirror

variable {m : Memory} {db : Contents} (h : Mirror ρ m db)

include h

/-- A goal is summed up for a team in the same way. -/
theorem goalSummary (hierarchy : Hierarchy) {t t' : TeamGoal} (ht : t.Like ρ t') :
    ReadsAlike m db (GoalSummary.Like ρ) (Rollup.goalSummary hierarchy t)
      (Rollup.goalSummary hierarchy t') := by
  have hij := ht.1.1
  refine (h.askKeyResultsOf hij).bind fun k k' hk _ => ?_
  refine (h.askShares hij).bind fun s s' hs _ => .done ⟨ht.1.1, ?_⟩
  dsimp only
  rw [ofKeyResults_of_like hk, contributingTeams_of_like hs.1 ht.1, ht.2, ht.1.2]
  rfl

theorem goalSummaries (hierarchy : Hierarchy) (team : TeamId) (period : PeriodId) :
    ReadsAlike m db (List.Forall₂ (GoalSummary.Like ρ)) (Rollup.goalSummaries hierarchy team period)
      (Rollup.goalSummaries hierarchy team period) :=
  (h.askGoalsOf team period).bind fun _ _ hl _ =>
    .each (fun _ _ ht => h.goalSummary hierarchy ht) hl

/-- **The row of a team is the same.** -/
theorem ofTeam (team : TeamId) (period : PeriodId) :
    ReadsAlike m db (TeamSummary.Like ρ) (Rollup.ofTeam team period) (Rollup.ofTeam team period) := by
  refine (h.requirePeriod period).bind fun _ _ _ _ => ?_
  refine h.hierarchy.bind fun t t' ht _ => ?_
  subst ht
  have hfound : Option.Rel (fun (a b : Team) => b = a) (t'.get? team) (t'.get? team) := by
    cases t'.get? team with
    | none => exact .none
    | some a => exact .some rfl
  refine (ReadsAlike.expect (by rfl) (by rfl) hfound).bind fun a b hab _ => ?_
  subst hab
  refine (h.askStatus _ period).bind fun s s' hs _ => ?_
  subst hs
  exact (h.goalSummaries t' _ period).bind fun l l' hl _ => .done (aggregate_like hl)

/-- **The teams that a goal could be shared with are the same.** -/
theorem shareCandidates (unit : Nat) {i j : GoalId} (hij : ρ.SameGoal m db i j) :
    ReadsAlike m db (fun l l' => l' = l) (Rollup.shareCandidates unit i)
      (Rollup.shareCandidates unit j) := by
  refine (h.requireGoal hij).bind fun g g' hg _ => ?_
  obtain ⟨hg, -⟩ := hg
  refine (h.askShares hg.1).bind fun s s' hs _ => ?_
  rw [hg.period]
  refine (h.askStatuses _).bind fun u u' hu _ => ?_
  subst hu
  refine h.hierarchy.bind fun t t' ht _ => ?_
  subst ht
  have hwalk : SameOutcome (fun (l l' : List WalkEntry) => l' = l) (t'.walk none) (t'.walk none) := by
    cases t'.walk none with
    | ok l => exact .ok rfl
    | error e => exact .error rfl rfl
  refine (ReadsAlike.lift hwalk).bind fun l l' hl _ => .done ?_
  subst hl
  refine List.map_congr_left fun entry _ => ?_
  simp only [Rollup.shareCandidate, hg.isOwnedBy, any_team_of_like hs.1,
    effectiveWeight_of_like hs.1 hg]

theorem keyResultView {k k' : KeyResult} (hk : k.Like ρ k') :
    ReadsAlike m db (KeyResultView.Like ρ)
      ((Program.ask (.comments (.keyResult k.id))).bind fun comments => .done (k.view comments))
      ((Program.ask (.comments (.keyResult k'.id))).bind fun comments => .done (k'.view comments)) := by
  refine (h.askComments _ _).bind fun c c' hc _ => .done ⟨hk, ?_⟩
  obtain ⟨rfl, rfl⟩ := hc
  rw [KeyResult.view, hk.progress]
  rfl

/-- **The page of a goal is the same.** -/
theorem goalDetail {i j : GoalId} (hij : ρ.SameGoal m db i j) :
    ReadsAlike m db (GoalDetail.Like ρ) (Rollup.goalDetail i) (Rollup.goalDetail j) := by
  refine (h.requireGoal hij).bind fun g g' hg _ => ?_
  obtain ⟨hg, -⟩ := hg
  have hgoal := hg.1
  refine (h.askKeyResultsOf hgoal).bind fun k k' hk _ => ?_
  refine (ReadsAlike.each (fun a b hab => h.keyResultView hab) hk).bind fun v v' hv _ => ?_
  refine h.hierarchy.bind fun t t' ht _ => ?_
  subst ht
  refine (h.askShares hgoal).bind fun s s' hs _ => ?_
  rw [hg.team, hg.period]
  refine (h.askStatus _ _).bind fun u u' hu _ => ?_
  subst hu
  refine (h.askComments _ _).bind fun c c' hc _ => .done ?_
  obtain ⟨rfl, rfl⟩ := hc
  rw [contributingTeams_of_like hs.1 hg]
  exact assemble_like hg hv

end Mirror

end Objectives
