/- # The candidates for a goal

Before a goal is shared, the teams are listed that it could be shared with.  The list goes over all
teams in the order of a walk; a request to share looks its targets up one by one.  Both come to the
same: a request succeeds if it names teams that are listed as eligible, and the request that names the
selected teams at their listed weights changes nothing.

Main definitions:

* `Memory.mayCarry` — whether a team may be named in a request to share a goal;
* `Memory.Refusal` — why a request to share is refused.

Main results:

* `Memory.checkTarget_answers`, `Memory.checkTarget_refuses` — the check of a target;
* `Memory.share_accepts`, `Memory.share_refuses` — a request to share;
* `Memory.exists_eligible_iff` — the teams that are listed as eligible are those that may carry it;
* `Memory.replaceShares_same` — a plan of what is there changes nothing;
* `Memory.share_candidates` — **the list of candidates and the request to share agree**.
-/

import Objectives.Proofs.Handover

set_option relaxedAutoImplicit false
set_option autoImplicit false

namespace Objectives

/-! ### Plans -/

namespace SharePlan

variable {goal : GoalId} {owner : TeamId} {targets : List ShareTarget} {plan : SharePlan}

/-- A request that names teams has a plan. -/
theorem exists_resolve (goal : GoalId) (owner : TeamId) (h : targets ≠ []) :
    ∃ plan, resolve goal owner targets = .ok plan := by
  unfold resolve
  simp only
  split
  · rename_i hnone
    obtain ⟨target, rest, rfl⟩ := List.exists_cons_of_ne_nil h
    have hhead : target.team ∈
        (distinctBy ShareTarget.team (target :: rest)).map ShareTarget.team :=
      mem_map_distinctBy.2 (by simp)
    rw [Option.or_eq_none_iff, List.head?_eq_none_iff] at hnone
    rw [hnone.2] at hhead
    cases hhead
  · exact ⟨_, rfl⟩

theorem goal_of_resolve (h : resolve goal owner targets = .ok plan) : plan.goal = goal := by
  obtain ⟨next, -, rfl⟩ := exists_of_resolve h
  rfl

/-- The owner and the other teams of a plan are targets of the request, each where it is named first.
-/
theorem mem_distinct_of_resolve (h : resolve goal owner targets = .ok plan) :
    plan.owner ∈ distinctBy ShareTarget.team targets ∧
      ∀ s ∈ plan.shares, s ∈ distinctBy ShareTarget.team targets := by
  obtain ⟨next, hnext, rfl⟩ := exists_of_resolve h
  refine ⟨?_, fun s hs => List.mem_of_mem_filter hs⟩
  rw [Option.or_eq_some_iff] at hnext
  rcases hnext with hfind | ⟨-, hhead⟩
  · exact List.mem_of_find?_eq_some hfind
  · exact List.mem_of_head? hhead

/-- The owner and the other teams of a plan are targets of the request. -/
theorem mem_of_resolve (h : resolve goal owner targets = .ok plan) :
    plan.owner ∈ targets ∧ ∀ s ∈ plan.shares, s ∈ targets := by
  obtain ⟨howner, hshares⟩ := mem_distinct_of_resolve h
  exact ⟨mem_of_mem_distinctBy howner, fun s hs => mem_of_mem_distinctBy (hshares s hs)⟩

/-- A plan takes in each team that is named, and no other. -/
theorem mem_teams_of_resolve (h : resolve goal owner targets = .ok plan) {team : TeamId} :
    team ∈ plan.teams ↔ team ∈ targets.map ShareTarget.team := by
  obtain ⟨howner, hshares⟩ := mem_of_resolve h
  constructor
  · intro hteam
    rcases List.mem_cons.1 hteam with rfl | hteam
    · exact List.mem_map_of_mem howner
    · obtain ⟨s, hs, rfl⟩ := List.mem_map.1 hteam
      exact List.mem_map_of_mem (hshares s hs)
  · intro hteam
    rw [teams, List.mem_cons]
    by_cases hne : team = plan.owner.team
    · exact .inl hne
    · refine .inr ?_
      obtain ⟨target, htarget, rfl⟩ := List.mem_map.1 (mem_map_distinctBy.2 hteam)
      obtain ⟨next, -, rfl⟩ := exists_of_resolve h
      exact List.mem_map_of_mem (List.mem_filter.2 ⟨htarget, by simpa using hne⟩)

/-- The present owner keeps the goal if it is named. -/
theorem owner_of_resolve (h : resolve goal owner targets = .ok plan)
    (hnamed : owner ∈ targets.map ShareTarget.team) : plan.owner.team = owner := by
  obtain ⟨target, htarget, hteam⟩ := List.mem_map.1 (mem_map_distinctBy.2 hnamed)
  obtain ⟨next, hnext, rfl⟩ := exists_of_resolve h
  rw [Option.or_eq_some_iff] at hnext
  rcases hnext with hfind | ⟨hnone, -⟩
  · simpa using List.find?_some hfind
  · have := List.find?_eq_none.1 hnone target htarget
    simp [hteam] at this

/-- Else the goal goes to the first team that is named. -/
theorem head?_of_resolve (h : resolve goal owner targets = .ok plan)
    (hnamed : owner ∉ targets.map ShareTarget.team) : targets.head? = some plan.owner := by
  obtain ⟨next, hnext, rfl⟩ := exists_of_resolve h
  rw [Option.or_eq_some_iff] at hnext
  rcases hnext with hfind | ⟨-, hhead⟩
  · have hteam : next.team = owner := by simpa using List.find?_some hfind
    have hmem := mem_of_mem_distinctBy (List.mem_of_find?_eq_some hfind)
    exact absurd (List.mem_map.2 ⟨next, hmem, hteam⟩) hnamed
  · rwa [head?_distinctBy] at hhead

/-- No team has two shares in a plan. -/
theorem nodup_of_resolve (h : resolve goal owner targets = .ok plan) :
    (plan.shares.map ShareTarget.team).Nodup := by
  obtain ⟨next, -, rfl⟩ := exists_of_resolve h
  exact (nodup_distinctBy ShareTarget.team targets).sublist (List.filter_sublist.map _)

/-- Where a team is named first, it is named as in the plan. -/
theorem eq_owner_or_mem_of_resolve (h : resolve goal owner targets = .ok plan) {team : TeamId}
    {first : ShareTarget} (hfirst : (targets.find? fun t => t.team == team) = some first) :
    first = plan.owner ∨ first ∈ plan.shares := by
  have hteam : first.team = team := by simpa using List.find?_some hfirst
  subst hteam
  obtain ⟨howner, hshares⟩ := mem_distinct_of_resolve h
  have hsame : ∀ t ∈ distinctBy ShareTarget.team targets, t.team = first.team → t = first := by
    intro t ht hteam
    have hfind := find?_of_mem_distinctBy ht
    rw [hteam, hfirst, Option.some_inj] at hfind
    exact hfind.symm
  have hnamed := List.mem_map_of_mem (f := ShareTarget.team) (List.mem_of_find?_eq_some hfirst)
  rcases List.mem_cons.1 ((mem_teams_of_resolve h).2 hnamed) with hteam | hteam
  · exact .inl (hsame _ howner hteam.symm).symm
  · obtain ⟨s, hs, hteam⟩ := List.mem_map.1 hteam
    exact .inr (hsame s (hshares s hs) hteam ▸ hs)

end SharePlan

/-! ### Checks of many -/

namespace Program

variable {α β : Type} {m : Memory}

/-- If each check of a list either gives an answer or refuses, and one of them refuses, then all of
them together refuse as one that does. -/
theorem each_refuses {f : α → Program β} {accepts : α → Bool} {refuses : α → Failure → Prop}
    (yes : ∀ a, accepts a = true → ∃ b, (f a).Answers m b)
    (no : ∀ a, accepts a = false → ∃ e, (f a).run Memory.carry m = (.error e, m) ∧ refuses a e)
    {list : List α} (h : list.all accepts = false) :
    ∃ a ∈ list, ∃ e, (Program.each f list).run Memory.carry m = (.error e, m) ∧ refuses a e := by
  induction list with
  | nil => cases h
  | cons a rest ih =>
    cases ha : accepts a with
    | false =>
      obtain ⟨e, hrun, he⟩ := no a ha
      refine ⟨a, by simp, e, ?_, he⟩
      rw [Program.each, Program.run_bind, hrun]
    | true =>
      rw [List.all_cons, ha, Bool.true_and] at h
      obtain ⟨b, hb⟩ := yes a ha
      obtain ⟨a', ha', e, hrun, he⟩ := ih h
      refine ⟨a', by simp [ha'], e, ?_, he⟩
      rw [Program.each, hb.run_bind, Program.run_bind, hrun]

end Program

/-! ### Targets -/

namespace Memory

/-- Whether a team may be named in a request to share a goal: it exists, and it carries the goal
already or its status allows it. -/
def mayCarry (m : Memory) (g : Goal) (team : TeamId) : Bool :=
  m.teams.contains team &&
    (m.carries team g || (((m.listStatuses g.period).get? team).getD .noGoals).acceptsShares)

/-- Why a request to share is refused: there is no such team, or its status does not allow it. -/
def Refusal (team : TeamId) (e : Failure) : Prop :=
  e = .teamMissing team ∨ ∃ status, e = .shareTargetLocked team status

section Targets

open Program (Answers)

variable {m : Memory} {id : GoalId} {g : Goal} {team : TeamId}

/-- A team owns the goal or is among the listed shares if it carries it. -/
theorem selected_eq_carries (h : m.Ledger) (g : Goal) (team : TeamId) :
    (g.isOwnedBy team || (m.listShares g.id).any fun s => s.team == team) = m.carries team g := by
  rw [Bool.eq_iff_iff, ← mem_carriers_iff h, List.mem_cons, List.mem_map, Bool.or_eq_true,
    List.any_eq_true]
  simp only [Goal.isOwnedBy, beq_iff_eq]
  rw [eq_comm (a := g.team)]

theorem requireTeam_answers {t : Team} (hteam : m.teams.get? team = some t) :
    (requireTeam team).Answers m t := by
  refine Answers.bind (.ask rfl) ?_
  rw [hteam]
  exact .done t

/-- The check of a target accepts a team that may carry the goal. -/
theorem checkTarget_answers (h : m.Ledger) (hteam : m.mayCarry g team = true) :
    (Goals.checkTarget g (m.listShares g.id) (m.listStatuses g.period) team).Answers m () := by
  rw [mayCarry, Bool.and_eq_true, Bool.or_eq_true] at hteam
  obtain ⟨t, ht⟩ := Table.contains_iff.1 hteam.1
  refine (requireTeam_answers ht).bind ?_
  rw [selected_eq_carries h]
  split
  · exact .done ()
  · rename_i hcarries
    show Answers (if _ then _ else _) m ()
    rw [if_pos (hteam.2.resolve_left hcarries)]
    exact .done ()

/-- The check of a target refuses any other team. -/
theorem checkTarget_refuses (h : m.Ledger) (hteam : m.mayCarry g team = false) :
    ∃ e, (Goals.checkTarget g (m.listShares g.id) (m.listStatuses g.period) team).run carry m =
      (.error e, m) ∧ Refusal team e := by
  cases ht : m.teams.get? team with
  | none =>
    refine ⟨.teamMissing team, ?_, .inl rfl⟩
    have hask : (Program.ask (.team team)).Answers m none := .ask (ht ▸ rfl)
    have hrequire : (requireTeam team).run carry m = (.error (.teamMissing team), m) :=
      hask.run_bind _
    rw [Goals.checkTarget, Program.bind_eq, Program.run_bind, hrequire]
  | some t =>
    rw [mayCarry, Table.contains_of_get? ht, Bool.true_and, Bool.or_eq_false_iff] at hteam
    refine ⟨_, ?_, .inr ⟨((m.listStatuses g.period).get? team).getD .noGoals, rfl⟩⟩
    refine ((requireTeam_answers ht).run_bind _).trans ?_
    rw [selected_eq_carries h, if_neg (by simp [hteam.1])]
    show (if _ then _ else _ : Program Unit).run carry m = _
    rw [if_neg (by simp [hteam.2])]
    rfl

end Targets

/-! ### Requests -/

section Requests

open Program (Answers)

variable {m : Memory} {id : GoalId} {g : Goal} {targets : List ShareTarget} {plan : SharePlan}

/-- Once the goal has been found and there is a plan, all teams of the plan are checked. -/
theorem run_share (h : m.Ledger) (hget : m.goals.get? id = some g)
    (hplan : SharePlan.resolve id g.team targets = .ok plan) :
    (Goals.share id targets).run carry m =
      ((Program.each (Goals.checkTarget g (m.listShares g.id) (m.listStatuses g.period))
        plan.teams).bind fun _ => (Program.ask (.replaceShares plan)).bind fun _ =>
          .done ⟨plan, plan.changesOwner g.team⟩ : Program GoalShared).run carry m := by
  obtain rfl := h.goalKeyed id g hget
  refine ((requireGoal_answers hget).run_bind _).trans ?_
  have hcheck : (Program.check (SharePlan.resolve g.id g.team targets)).Answers m plan := by
    rw [hplan]
    exact .done plan
  refine (hcheck.run_bind _).trans ?_
  have hshares : (Program.ask (.shares g.id)).Answers m (m.listShares g.id) := .ask rfl
  refine (hshares.run_bind _).trans ?_
  have hstatuses : (Program.ask (.statuses g.period)).Answers m (m.listStatuses g.period) :=
    .ask rfl
  exact hstatuses.run_bind _

/-- A request to share is carried out if all teams that it names may carry the goal. -/
theorem share_accepts (h : m.Ledger) (hget : m.goals.get? id = some g)
    (hplan : SharePlan.resolve id g.team targets = .ok plan)
    (hteams : ∀ t ∈ targets, m.mayCarry g t.team = true) :
    (Goals.share id targets).run carry m =
      (.ok ⟨plan, plan.changesOwner g.team⟩, (m.replaceShares plan).2) := by
  have hall : ∀ team ∈ plan.teams, m.mayCarry g team = true := by
    intro team hteam
    obtain ⟨t, ht, rfl⟩ := List.mem_map.1 ((SharePlan.mem_teams_of_resolve hplan).1 hteam)
    exact hteams t ht
  have hchecks : (Program.each (Goals.checkTarget g (m.listShares g.id)
      (m.listStatuses g.period)) plan.teams).Answers m (plan.teams.map fun _ => ()) :=
    .each fun team hteam => checkTarget_answers h (hall team hteam)
  rw [run_share h hget hplan, hchecks.run_bind, Program.run_bind, run_ask, carry]
  have hreplace : (m.replaceShares plan).1 = .ok () := by
    rw [← SharePlan.goal_of_resolve hplan] at hget
    obtain ⟨order, -, hset⟩ := exists_setOwner_eq hget plan.owner
    rw [replaceShares, hset]
  rw [← Prod.mk.eta (p := m.replaceShares plan), hreplace]
  rfl

/-- A request names only teams that may carry the goal, and at least one, or it names none or one
that may not. -/
theorem not_accepted_iff : ¬ (targets ≠ [] ∧ ∀ t ∈ targets, m.mayCarry g t.team = true) ↔
    targets = [] ∨ ∃ t ∈ targets, m.mayCarry g t.team = false := by
  simp only [not_and_or, ne_eq, not_not, not_forall, Bool.not_eq_true, exists_prop]

/-- A request to share is refused if it names no team, or one that may not carry the goal; it has
changed nothing then. -/
theorem share_refuses (h : m.Ledger) (hget : m.goals.get? id = some g)
    (hteams : targets = [] ∨ ∃ t ∈ targets, m.mayCarry g t.team = false) :
    ∃ e, (Goals.share id targets).run carry m = (.error e, m) ∧
      (targets = [] ∧ e = .invalid (.empty "teams") ∨ ∃ t ∈ targets, Refusal t.team e) := by
  by_cases hempty : targets = []
  · subst hempty
    obtain rfl := h.goalKeyed id g hget
    refine ⟨_, ?_, .inl ⟨rfl, rfl⟩⟩
    exact (requireGoal_answers hget).run_bind _
  · obtain ⟨plan, hplan⟩ := SharePlan.exists_resolve id g.team hempty
    obtain ⟨t, ht, hno⟩ := hteams.resolve_left hempty
    have hteam := (SharePlan.mem_teams_of_resolve hplan).2 (List.mem_map_of_mem ht)
    have hall : plan.teams.all (m.mayCarry g) = false := by
      rw [List.all_eq_false]
      exact ⟨t.team, hteam, by simp [hno]⟩
    obtain ⟨team, hmem, e, hrun, he⟩ := Program.each_refuses
      (fun team hyes => ⟨(), checkTarget_answers h hyes⟩)
      (fun team hno => checkTarget_refuses h hno) hall
    refine ⟨e, ?_, .inr ?_⟩
    · rw [run_share h hget hplan, Program.run_bind, hrun]
    · obtain ⟨t', ht', rfl⟩ := List.mem_map.1 ((SharePlan.mem_teams_of_resolve hplan).1 hmem)
      exact ⟨t', ht', he⟩

end Requests

/-! ### The list of candidates -/

section Listing

open Program (Answers)

variable {m : Memory} {id : GoalId} {g : Goal} {entries : List WalkEntry}

/-- The candidates for a goal: the teams of a walk, with the shares and statuses that are stored. -/
def candidates (m : Memory) (indentUnit : Nat) (g : Goal) (entries : List WalkEntry) :
    List ShareCandidate :=
  entries.map (Rollup.shareCandidate g (m.listShares g.id) (m.listStatuses g.period) indentUnit)

theorem shareCandidates_answers (h : m.Ledger) (hget : m.goals.get? id = some g)
    (hw : m.hierarchy.walk none = .ok entries) (indentUnit : Nat) :
    (Rollup.shareCandidates indentUnit id).Answers m (m.candidates indentUnit g entries) := by
  obtain rfl := h.goalKeyed id g hget
  refine (requireGoal_answers hget).bind ?_
  refine Answers.bind (.ask rfl) (Answers.bind (.ask rfl) ?_)
  refine Rollup.hierarchy_answers.bind ?_
  have hwalk : (Program.lift (m.hierarchy.walk none)).Answers m entries := by
    rw [hw]
    exact .done entries
  exact hwalk.bind (.done _)

variable {indentUnit : Nat} {team : TeamId}

/-- A team is listed if it exists. -/
theorem exists_candidate_iff (h : m.Sound) (hw : Teams.IsWalk m.teams.values entries)
    (indentUnit : Nat) (g : Goal) :
    (∃ c ∈ m.candidates indentUnit g entries, c.team = team) ↔
      m.teams.contains team = true := by
  have hteams : ((m.candidates indentUnit g entries).map ShareCandidate.team).Perm
      m.teams.keys := by
    have hperm := hw.perm.map Team.id
    rw [h.teamsKeyed.map_values, List.map_map] at hperm
    rw [candidates, List.map_map]
    exact hperm
  rw [Table.contains_iff, ← Table.mem_keys_iff, ← hteams.mem_iff, List.mem_map]

/-- What is listed of a team. -/
theorem of_mem_candidates (h : m.Ledger) {c : ShareCandidate}
    (hc : c ∈ m.candidates indentUnit g entries) :
    c.selected = m.carries c.team g ∧
      c.eligible = (m.carries c.team g ||
        (((m.listStatuses g.period).get? c.team).getD .noGoals).acceptsShares) ∧
      c.weight = effectiveWeight g c.team (m.listShares g.id) := by
  obtain ⟨entry, -, rfl⟩ := List.mem_map.1 hc
  have hselected := selected_eq_carries h g entry.team.id
  refine ⟨hselected, ?_, rfl⟩
  rw [Rollup.shareCandidate, ← hselected]

/-- The teams that are listed as eligible are those that may carry the goal. -/
theorem exists_eligible_iff (h : m.Sound) (hw : Teams.IsWalk m.teams.values entries) :
    (∃ c ∈ m.candidates indentUnit g entries, c.team = team ∧ c.eligible = true) ↔
      m.mayCarry g team = true := by
  rw [mayCarry, Bool.and_eq_true, ← exists_candidate_iff h hw indentUnit g]
  constructor
  · rintro ⟨c, hc, rfl, heligible⟩
    refine ⟨⟨c, hc, rfl⟩, ?_⟩
    rw [← (of_mem_candidates h.ledger hc).2.1]
    exact heligible
  · rintro ⟨⟨c, hc, rfl⟩, hmay⟩
    refine ⟨c, hc, rfl, ?_⟩
    rw [(of_mem_candidates h.ledger hc).2.1]
    exact hmay

/-- The teams that are listed as selected are those that carry the goal. -/
theorem exists_selected_iff (h : m.Sound) (hw : Teams.IsWalk m.teams.values entries)
    (hget : m.goals.get? id = some g) (indentUnit : Nat) :
    (∃ c ∈ m.candidates indentUnit g entries, c.selected = true ∧ c.team = team) ↔
      m.carries team g = true := by
  constructor
  · rintro ⟨c, hc, hselected, rfl⟩
    rw [← (of_mem_candidates h.ledger hc).1]
    exact hselected
  · intro hcarries
    have hkey := h.mem_keys_of_carries hget hcarries
    rw [Table.mem_keys_iff, ← Table.contains_iff,
      ← exists_candidate_iff h hw indentUnit g] at hkey
    obtain ⟨c, hc, rfl⟩ := hkey
    refine ⟨c, hc, ?_, rfl⟩
    rw [(of_mem_candidates h.ledger hc).1]
    exact hcarries

end Listing

/-! ### The selected candidates -/

section Selected

variable {m : Memory} {id : GoalId} {g : Goal}

/-- Setting the weight that a share has changes nothing. -/
theorem setShare_same {shares : Table (GoalId × TeamId) Share} {order : Int} {target : ShareTarget}
    {s : Share} (hget : shares.get? (id, target.team) = some s) (hweight : s.weight = target.weight) :
    setShare id order shares target = shares := by
  unfold setShare
  simp only [hget]
  rw [← hweight]
  exact Table.insert_get? hget

theorem foldl_setShare_same {shares : Table (GoalId × TeamId) Share} {order : Int}
    {targets : List ShareTarget} (h : ∀ target ∈ targets, ∃ s,
      shares.get? (id, target.team) = some s ∧ s.weight = target.weight) :
    targets.foldl (setShare id order) shares = shares := by
  induction targets with
  | nil => rfl
  | cons target rest ih =>
    obtain ⟨s, hs, hweight⟩ := h target (by simp)
    rw [List.foldl_cons, setShare_same hs hweight]
    exact ih fun t ht => h t (by simp [ht])

/-- A plan that names the owner and the teams with a share, all at the weights that they have, changes
nothing. -/
theorem replaceShares_same {plan : SharePlan}
    (hget : m.goals.get? plan.goal = some g) (howner : plan.owner = ⟨g.team, g.weight⟩)
    (hkept : ∀ team, m.shares.contains (plan.goal, team) = true → ∃ s ∈ plan.shares, s.team = team)
    (hshares : ∀ target ∈ plan.shares, ∃ s, m.shares.get? (plan.goal, target.team) = some s ∧
      s.weight = target.weight) :
    (m.replaceShares plan).2 = m := by
  have hall : (m.shares.filter fun key _ =>
      key.1 != plan.goal || plan.shares.any fun s => s.team == key.2) = m.shares := by
    refine Table.ext_get? fun key => ?_
    rw [Table.get?_filter]
    cases hkey : m.shares.get? key with
    | none => rfl
    | some s =>
      obtain ⟨i, team⟩ := key
      by_cases hi : i = plan.goal
      · subst hi
        obtain ⟨target, htarget, hteam⟩ := hkept team (Table.contains_of_get? hkey)
        have hany : (plan.shares.any fun s => s.team == team) = true :=
          List.any_eq_true.2 ⟨target, htarget, by simp [hteam]⟩
        simp [hany]
      · simp [hi]
  obtain ⟨order, horder, hset⟩ := exists_setOwner_eq hget plan.owner
  have hsame : g.givenTo plan.owner order = g := by
    rw [horder, howner]
    simp [Goal.givenTo]
  rw [replaceShares, hset, hsame, Table.insert_get? hget]
  simp only
  rw [hall, foldl_setShare_same hshares]

/-- The request that names the teams that carry a goal, each of them first at the weight that it has,
changes nothing. -/
theorem share_same_first (h : m.Sound) (hget : m.goals.get? id = some g)
    {targets : List ShareTarget}
    (hcarry : ∀ team, team ∈ targets.map ShareTarget.team ↔ m.carries team g = true)
    (hweights : ∀ t ∈ distinctBy ShareTarget.team targets,
      t.weight = effectiveWeight g t.team (m.listShares id)) :
    ∃ outcome, (Goals.share id targets).run carry m = (.ok outcome, m) := by
  obtain rfl := h.ledger.goalKeyed id g hget
  have howner : g.team ∈ targets.map ShareTarget.team :=
    (hcarry g.team).2 (carries_iff.2 (.inl rfl))
  have hteams : ∀ t ∈ targets, m.mayCarry g t.team = true := by
    intro t ht
    have hcarries := (hcarry t.team).1 (List.mem_map_of_mem ht)
    have hkey := h.mem_keys_of_carries hget hcarries
    rw [Table.mem_keys_iff, ← Table.contains_iff] at hkey
    rw [mayCarry, hkey, hcarries]
    rfl
  have hne : targets ≠ [] := by
    rintro rfl
    cases howner
  obtain ⟨plan, hplan⟩ := SharePlan.exists_resolve g.id g.team hne
  have hgoal := SharePlan.goal_of_resolve hplan
  obtain ⟨hownerMem, hshareMem⟩ := SharePlan.mem_distinct_of_resolve hplan
  have hownerTeam := SharePlan.owner_of_resolve hplan howner
  have hsame : (m.replaceShares plan).2 = m := by
    refine replaceShares_same (hgoal ▸ hget) ?_ ?_ ?_
    · -- the owner is named at the weight that stands with the goal
      have hweight := hweights plan.owner hownerMem
      rw [hownerTeam, effectiveWeight, if_pos (by simp [Goal.isOwnedBy])] at hweight
      rw [← hownerTeam, ← hweight]
    · intro team hshare
      rw [hgoal] at hshare
      have hteam := (SharePlan.mem_teams_of_resolve hplan).2
        ((hcarry team).2 (carries_iff.2 (.inr hshare)))
      rcases List.mem_cons.1 hteam with rfl | hteam
      · rw [hownerTeam, Table.contains, h.ledger.owner_unshared hget] at hshare
        cases hshare
      · obtain ⟨s, hs, rfl⟩ := List.mem_map.1 hteam
        exact ⟨s, hs, rfl⟩
    · intro target htarget
      have hother := SharePlan.owner_not_shared hplan target htarget
      rw [hownerTeam] at hother
      have hnamed := mem_of_mem_distinctBy (hshareMem target htarget)
      have hcarries := (hcarry target.team).1 (List.mem_map_of_mem hnamed)
      obtain ⟨s, hs⟩ := Table.contains_iff.1 ((carries_iff.1 hcarries).resolve_left hother)
      have hweight := hweights target (hshareMem target htarget)
      rw [effectiveWeight_listShares h.ledger hget, hs] at hweight
      rw [hgoal]
      exact ⟨s, hs, hweight.symm⟩
  refine ⟨⟨plan, plan.changesOwner g.team⟩, ?_⟩
  rw [share_accepts h.ledger hget hplan hteams, hsame]

/-- So does the request that names them at these weights only. -/
theorem share_same (h : m.Sound) (hget : m.goals.get? id = some g) {targets : List ShareTarget}
    (hcarry : ∀ team, team ∈ targets.map ShareTarget.team ↔ m.carries team g = true)
    (hweights : ∀ t ∈ targets, t.weight = effectiveWeight g t.team (m.listShares id)) :
    ∃ outcome, (Goals.share id targets).run carry m = (.ok outcome, m) :=
  share_same_first h hget hcarry fun t ht => hweights t (mem_of_mem_distinctBy ht)

end Selected

/-- **The list of candidates and the request to share agree**, in every store that can come about with
acyclic teams.  The teams of a goal can be listed.  A request to share it is carried out if it names a
team, and only teams that are listed as eligible; it is refused otherwise, for want of a team, for a
team that is missing or for one that is locked, and changes nothing.  To name the selected candidates,
at the weights that they are listed with and in any order, changes nothing either. -/
theorem share_candidates {m : Memory} (h : m.Reachable) (hacyclic : Teams.Acyclic m.teams.values)
    {id : GoalId} {g : Goal} (hget : m.goals.get? id = some g) (indentUnit : Nat) :
    ∃ candidates, (Rollup.shareCandidates indentUnit id).run carry m = (.ok candidates, m) ∧
      (∀ targets, (∃ outcome m', (Command.shareGoal id targets).program.run carry m =
          (.ok outcome, m')) ↔
        targets ≠ [] ∧ ∀ t ∈ targets, ∃ c ∈ candidates, c.team = t.team ∧ c.eligible = true) ∧
      (∀ targets e m', (Command.shareGoal id targets).program.run carry m = (.error e, m') →
        m' = m ∧ (targets = [] ∧ e = .invalid (.empty "teams") ∨
          ∃ t ∈ targets, e = .teamMissing t.team ∨ ∃ status, e = .shareTargetLocked t.team status)) ∧
      ∀ targets, targets.Perm ((candidates.filter ShareCandidate.selected).map fun c =>
          (⟨c.team, c.weight⟩ : ShareTarget)) →
        ∃ outcome, (Command.shareGoal id targets).program.run carry m = (.ok outcome, m) := by
  have hsound := h.sound
  have distinct : (m.teams.values.map Team.id).Nodup := by
    rw [hsound.teamsKeyed.map_values]
    exact m.teams.nodup_keys
  obtain ⟨entries, hwalk⟩ := (Hierarchy.exists_walk_ofList_iff distinct).2 hacyclic
  have hw := Hierarchy.isWalk_ofList distinct hwalk
  refine ⟨_, shareCandidates_answers hsound.ledger hget hwalk indentUnit, ?_, ?_, ?_⟩
  · intro targets
    simp only [exists_eligible_iff hsound hw]
    constructor
    · rintro ⟨outcome, m', hrun⟩
      by_contra hnot
      obtain ⟨e, herror, -⟩ := share_refuses hsound.ledger hget (not_accepted_iff.1 hnot)
      have hboth := hrun.symm.trans herror
      cases hboth
    · rintro ⟨hne, hteams⟩
      obtain ⟨plan, hplan⟩ := SharePlan.exists_resolve id g.team hne
      exact ⟨_, _, share_accepts hsound.ledger hget hplan hteams⟩
  · intro targets e m' hrun
    have hnot : ¬ (targets ≠ [] ∧ ∀ t ∈ targets, m.mayCarry g t.team = true) := by
      rintro ⟨hne, hteams⟩
      obtain ⟨plan, hplan⟩ := SharePlan.exists_resolve id g.team hne
      have hboth := hrun.symm.trans (share_accepts hsound.ledger hget hplan hteams)
      cases hboth
    obtain ⟨e', herror, hwhy⟩ := share_refuses hsound.ledger hget (not_accepted_iff.1 hnot)
    have hboth := hrun.symm.trans herror
    cases hboth
    exact ⟨rfl, hwhy⟩
  · intro targets hperm
    refine share_same hsound hget ?_ ?_
    · intro team
      rw [(hperm.map ShareTarget.team).mem_iff, List.map_map, List.mem_map,
        ← exists_selected_iff hsound hw hget indentUnit]
      simp only [List.mem_filter, and_assoc, Function.comp]
    · intro t ht
      obtain ⟨c, hc, rfl⟩ := List.mem_map.1 (hperm.mem_iff.1 ht)
      rw [(of_mem_candidates hsound.ledger (List.mem_filter.1 hc).1).2.2,
        hsound.ledger.goalKeyed id g hget]

/-- The same store with a third team, whose goals are validated. -/
def locked : Memory :=
  ((Command.setStatus 5 3 .validated).program.run carry
    (oneShare.addTeam "Support" .team (some 1)).2).2

/-- The third team is listed, but not as eligible; to name the other two, in any order, changes
nothing. -/
theorem share_candidates_locked :
    ∃ g candidates, locked.Reachable ∧ Teams.Acyclic locked.teams.values ∧
      locked.goals.get? 4 = some g ∧
      (Rollup.shareCandidates 2 4).run carry locked = (.ok candidates, locked) ∧
      (candidates.map fun c => (c.team, c.eligible, c.selected, c.weight.value)) =
        [(1, true, true, 60), (2, true, true, 40), (5, false, false, 60)] ∧
      ∃ outcome, (Command.shareGoal 4 [⟨2, ⟨40, by decide⟩⟩, ⟨1, ⟨60, by decide⟩⟩]).program.run
        carry locked = (.ok outcome, locked) := by
  have hreachable : locked.Reachable := (reachable_oneShare.addTeam _ _ _).run _
  have hwalk : ∃ entries, (Hierarchy.ofList locked.teams.values).walk none = .ok entries :=
    ⟨_, rfl⟩
  have distinct : (locked.teams.values.map Team.id).Nodup := by decide +kernel
  have hacyclic : Teams.Acyclic locked.teams.values :=
    (Hierarchy.exists_walk_ofList_iff distinct).1 hwalk
  have hget : locked.goals.get? 4 = some ⟨4, 1, 3, "Grow", "", .p0, ⟨60, by decide⟩, .delivery,
      .stability, "", 1⟩ := by decide +kernel
  obtain ⟨candidates, hrun, -, -, hsame⟩ := share_candidates hreachable hacyclic hget 2
  have hlist : ((Rollup.shareCandidates 2 4).run carry locked).1 = .ok [
      ⟨1, "Products", .unit, 0, 0, .forming, true, true, ⟨60, by decide⟩⟩,
      ⟨2, "Search", .team, 1, 2, .noGoals, true, true, ⟨40, by decide⟩⟩,
      ⟨5, "Support", .team, 1, 2, .validated, false, false, ⟨60, by decide⟩⟩] := by
    decide +kernel
  have hsole := (congrArg Prod.fst hrun).symm.trans hlist
  rw [Except.ok.injEq] at hsole
  subst hsole
  exact ⟨_, _, hreachable, hacyclic, hget, hrun, by decide +kernel, hsame _ (by decide +kernel)⟩

end Memory

end Objectives
