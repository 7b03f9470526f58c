/- # Walks that are refused

A walk is refused in two places.  A walk that meets a team again has come back to where it began,
since every other team is met as the child of its one parent: the team that is named stands on a
cycle.  A walk from all roots meets no team again, and names the smallest identifier that it has
missed.  What it misses is not only the cycles but all that hangs below them, so that the team that
is named may stand on no cycle.

Main definitions:

* `Teams.Blamed` — the team that a refused walk names;
* `Hierarchy.Rounds` — the invariant of a walk that may come back to where it began.

Main results:

* `Hierarchy.walk_some_eq_error_iff` — a walk from a listed team is refused exactly if the team is
  among its own ancestors, and the team is named;
* `Hierarchy.walk_none_eq_error_iff` — a walk of all teams is refused exactly if teams are stranded,
  and the one of the smallest identifier is named;
* `Hierarchy.walk_ofList_refused` — **the team that a refused walk of a list names**;
* `Hierarchy.walk_ofList_off_cycle` — it need not be part of a cycle.
-/

import Objectives.Proofs.Walk

set_option relaxedAutoImplicit false
set_option autoImplicit false

namespace Objectives

namespace Teams

/-- The teams that a refused walk may name: from one team, that team if it is among its own
ancestors; from all roots, the stranded team of the smallest identifier. -/
def Blamed (teams : List Team) : Option TeamId → Team → Prop
  | some id, t => t.id = id ∧ Ancestor teams t t
  | none, t => Stranded teams t ∧ ∀ s, Stranded teams s → t.id ≤ s.id

theorem Blamed.mem {teams : List Team} {root : Option TeamId} {t : Team}
    (h : Blamed teams root t) : t ∈ teams := by
  cases root with
  | some id => exact h.2.stranded.mem
  | none => exact h.1.mem

theorem blamed_congr {teams teams' : List Team} (h : ∀ t, t ∈ teams' ↔ t ∈ teams) :
    Blamed teams' = Blamed teams := by
  funext root t
  cases root <;> simp only [Blamed, Stranded, Ancestor, parent_congr h]

end Teams

namespace Hierarchy

open Teams

variable {h : Hierarchy} {pending : List WalkEntry}

/-! ### Walks that come back -/

/-- The invariant of a walk that may come back to the teams where it began: no other team stands
twice among those that have been seen or are pending. -/
structure Rounds (h : Hierarchy) (starts seen pending : List Team) : Prop where
  distinct : seen.Nodup
  once : ((seen ++ pending).filter fun t => t ∉ starts).Nodup
  listed : ∀ t ∈ seen ++ pending, t ∈ h.listed
  origin : ∀ t ∈ seen ++ pending, t ∈ starts ∨ ∃ p ∈ seen, Parent h.listed p t

namespace Rounds

variable {starts seen pending : List Team} {t : Team}

theorem start (hs : ∀ s ∈ starts, s ∈ h.listed) : h.Rounds starts [] starts where
  distinct := List.nodup_nil
  once := by
    rw [List.nil_append, List.filter_eq_nil_iff.2]
    · exact List.nodup_nil
    · intro s hs
      simp [hs]
  listed := hs
  origin _ hmem := .inl hmem

/-- A visit puts the children of the team in its place.  A child that is on the way already is a
start, or the team has been seen before. -/
theorem visit (keyed : h.teams.Keyed Team.id) (hr : h.Rounds starts seen (t :: pending))
    (hfresh : t ∉ seen) : h.Rounds starts (t :: seen) (h.childrenOf t.id ++ pending) := by
  have ht : t ∈ h.listed := hr.listed t (by simp)
  have hchild : ∀ c ∈ h.childrenOf t.id, Parent h.listed t c :=
    fun c hc => (mem_childrenOf keyed ht).1 hc
  have hperm : (t :: seen ++ (h.childrenOf t.id ++ pending)).Perm
      (h.childrenOf t.id ++ (seen ++ t :: pending)) :=
    (List.perm_append_comm_assoc ..).trans (List.perm_middle.symm.append_left _)
  have hnew : ∀ c ∈ h.childrenOf t.id, c ∉ starts → c ∉ seen ++ t :: pending := by
    intro c hc hstart hmem
    rcases hr.origin c hmem with hs | ⟨p, hp, hpc⟩
    · exact hstart hs
    · exact hfresh (hpc.unique (nodup_ids keyed) (hchild c hc) ▸ hp)
  constructor
  case distinct => exact List.nodup_cons.2 ⟨hfresh, hr.distinct⟩
  case once =>
    rw [(hperm.filter _).nodup_iff, List.filter_append, List.nodup_append']
    refine ⟨(nodup_childrenOf keyed t.id).filter _, hr.once, ?_⟩
    intro c hc hc'
    obtain ⟨hc, hstart⟩ := List.mem_filter.1 hc
    exact hnew c hc (of_decide_eq_true hstart) (List.mem_filter.1 hc').1
  case listed =>
    intro x hx
    rcases List.mem_append.1 (hperm.mem_iff.1 hx) with hx | hx
    · exact (hchild x hx).2.1
    · exact hr.listed x hx
  case origin =>
    intro x hx
    rcases List.mem_append.1 (hperm.mem_iff.1 hx) with hx | hx
    · exact .inr ⟨t, List.mem_cons_self .., hchild x hx⟩
    · refine (hr.origin x hx).imp_right ?_
      rintro ⟨p, hp, hpx⟩
      exact ⟨p, List.mem_cons_of_mem _ hp, hpx⟩

/-- A pending team that has been seen is one where the walk began. -/
theorem mem_starts (hr : h.Rounds starts seen (t :: pending)) (hseen : t ∈ seen) : t ∈ starts := by
  by_contra hstart
  have honce := hr.once
  rw [List.filter_append] at honce
  refine List.disjoint_of_nodup_append honce (a := t) ?_ ?_
  · simp [hseen, hstart]
  · simp [hstart]

/-- When as many teams have been seen as there are, a pending team has been seen. -/
theorem mem_seen (hr : h.Rounds starts seen (t :: pending)) (hall : h.size ≤ seen.length) :
    t ∈ seen := by
  have hsub : seen ⊆ h.listed := fun s hs => hr.listed s (List.mem_append_left _ hs)
  have hlength : h.listed.length ≤ seen.length := by
    rw [Hierarchy.listed, Table.values, List.length_map]
    exact hall
  have hperm : seen.Perm h.listed :=
    (List.subperm_of_subset hr.distinct hsub).perm_of_length_le hlength
  exact hperm.mem_iff.2 (hr.listed t (by simp))

end Rounds

/-- A visit is refused if the team has been seen, or if the walk is refused from the children on. -/
theorem visit_cons_eq_error {left : Nat} {seen : List TeamId} {e : WalkEntry} {f : Failure}
    (hv : h.visit (left + 1) seen (e :: pending) = .error f) :
    (e.team.id ∈ seen ∧ f = .parentCycle e.team.id) ∨
      (e.team.id ∉ seen ∧ h.visit left (e.team.id :: seen) (h.below e ++ pending) = .error f) := by
  rw [visit, ← below] at hv
  by_cases hseen : e.team.id ∈ seen
  · simp only [List.contains_iff_mem, hseen, if_true, Except.error.injEq] at hv
    exact .inl ⟨hseen, hv.symm⟩
  · simp only [List.contains_iff_mem, hseen, if_false] at hv
    cases hrest : h.visit left (e.team.id :: seen) (h.below e ++ pending) with
    | ok rest =>
      rw [hrest] at hv
      cases hv
    | error f' =>
      rw [hrest] at hv
      exact .inr ⟨hseen, hv⟩

/-- A walk that is refused names a team where it began. -/
theorem visit_error_start (keyed : h.teams.Keyed Team.id) {starts seen : List Team} {left : Nat}
    {f : Failure} (hr : h.Rounds starts seen (pending.map WalkEntry.team))
    (hleft : h.size ≤ left + seen.length)
    (hv : h.visit left (seen.map Team.id) pending = .error f) :
    ∃ s ∈ starts, f = .parentCycle s.id := by
  induction left generalizing seen pending with
  | zero =>
    cases pending with
    | nil => cases hv
    | cons e pending =>
      cases hv
      rw [Nat.zero_add] at hleft
      exact ⟨e.team, hr.mem_starts (hr.mem_seen hleft), rfl⟩
  | succ left ih =>
    cases pending with
    | nil => cases hv
    | cons e pending =>
      rcases visit_cons_eq_error hv with ⟨hseen, rfl⟩ | ⟨hseen, hrest⟩
      · obtain ⟨s, hs, hid⟩ := List.mem_map.1 hseen
        have heq : s = e.team :=
          List.inj_on_of_nodup_map (nodup_ids keyed) (hr.listed s (List.mem_append_left _ hs))
            (hr.listed e.team (by simp)) hid
        exact ⟨e.team, hr.mem_starts (heq ▸ hs), rfl⟩
      · have hfresh : e.team ∉ seen := fun hmem => hseen (List.mem_map_of_mem hmem)
        have hr' : h.Rounds starts (e.team :: seen)
            ((h.below e ++ pending).map WalkEntry.team) := by
          rw [List.map_append, map_team_below]
          exact hr.visit keyed hfresh
        exact ih hr' (by rw [List.length_cons]; omega) hrest

/-! ### Walks from one team -/

section Keyed

variable (keyed : h.teams.Keyed Team.id)
include keyed

/-- A walk from a team that is among its own ancestors does not succeed: the team would be listed
where the walk begins, and once more as a child. -/
theorem walkFrom_singleton_ne_ok {root : Team} (hself : Ancestor h.listed root root)
    (entries : List WalkEntry) : h.walkFrom [root] ≠ .ok entries := by
  intro hw
  have hlists : h.Lists [⟨root, 0⟩] entries := visit_lists hw
  have hroot : root ∈ h.listed := hself.stranded.mem
  obtain ⟨p, hrp, hp⟩ := Relation.TransGen.tail'_iff.1 hself
  have hmem : p ∈ entries.map WalkEntry.team := by
    rw [hlists.mem_teams_iff keyed fun e he => List.mem_singleton.1 he ▸ hroot]
    exact ⟨_, List.mem_singleton_self _, hrp⟩
  obtain ⟨e, he, rfl⟩ := List.mem_map.1 hmem
  have hfirst : ⟨root, 0⟩ ∈ entries := hlists.subset (List.mem_singleton_self _)
  have hagain : ⟨root, e.depth + 1⟩ ∈ entries :=
    hlists.mem_of_mem_below he (mem_below_of_parent keyed hp)
  have heq := List.inj_on_of_nodup_map (visit_distinct hw).1 hfirst hagain rfl
  cases heq

/-- **A walk from a listed team is refused exactly if the team is among its own ancestors**, and the
team is named. -/
theorem walk_some_eq_error_iff {root : Team} (hroot : root ∈ h.listed) {f : Failure} :
    h.walk (some root.id) = .error f ↔
      Ancestor h.listed root root ∧ f = .parentCycle root.id := by
  have hnamed : ∀ f', h.walkFrom [root] = .error f' → f' = .parentCycle root.id := by
    intro f' hw
    have hstart : h.Rounds [root] [] (([root].map fun t => (⟨t, 0⟩ : WalkEntry)).map WalkEntry.team) :=
      Rounds.start fun s hs => List.mem_singleton.1 hs ▸ hroot
    obtain ⟨s, hs, hf⟩ := visit_error_start keyed hstart (Nat.le_refl h.size) hw
    rw [hf, List.mem_singleton.1 hs]
  rw [walk_some_eq_walkFrom keyed hroot]
  constructor
  · intro hw
    refine ⟨?_, hnamed f hw⟩
    by_contra hself
    obtain ⟨entries, hok⟩ := walkFrom_singleton_ok keyed hroot hself
    rw [hok] at hw
    cases hw
  · rintro ⟨hself, rfl⟩
    cases hw : h.walkFrom [root] with
    | ok entries => exact absurd hw (walkFrom_singleton_ne_ok keyed hself entries)
    | error f' => rw [hnamed f' hw]

/-! ### Walks of all teams -/

omit keyed in
/-- In an ascending list the first key that passes a test is the least. -/
theorem find?_eq_some_iff_least {keys : List Int} (sorted : keys.Pairwise (· < ·)) {p : Int → Bool}
    {k : Int} : keys.find? p = some k ↔ k ∈ keys ∧ p k = true ∧ ∀ j ∈ keys, p j = true → k ≤ j := by
  rw [List.find?_eq_some_iff_append]
  constructor
  · rintro ⟨hk, before, after, rfl, hbefore⟩
    refine ⟨by simp, hk, fun j hj hpj => ?_⟩
    rcases List.mem_append.1 hj with hj | hj
    · have hnot := hbefore j hj
      rw [hpj] at hnot
      cases hnot
    · rcases List.mem_cons.1 hj with rfl | hj
      · exact Int.le_refl j
      · have htail := (List.pairwise_append.1 sorted).2.1
        exact Int.le_of_lt ((List.pairwise_cons.1 htail).1 j hj)
  · rintro ⟨hmem, hk, hleast⟩
    obtain ⟨before, after, rfl⟩ := List.append_of_mem hmem
    refine ⟨hk, before, after, rfl, fun j hj => ?_⟩
    have hlt : j < k := (List.pairwise_append.1 sorted).2.2 j hj k (List.mem_cons_self ..)
    rw [Bool.not_eq_true']
    by_contra hpj
    have hle := hleast j (List.mem_append_left _ hj) (by simpa using hpj)
    omega

omit keyed in
theorem keys_ascending (h : Hierarchy) : h.teams.keys.Pairwise (· < ·) := by
  rw [Table.keys, List.pairwise_map]
  exact h.teams.sorted.imp fun hbefore => of_decide_eq_true hbefore

/-- A walk from the roots misses the stranded teams. -/
theorem missed_iff_stranded {entries : List WalkEntry} (hw : h.walkFrom h.roots = .ok entries)
    {t : Team} (ht : t ∈ h.listed) :
    (!entries.any fun e => e.team.id == t.id) = true ↔ Stranded h.listed t := by
  have hteams : ∀ e ∈ entries, e.team ∈ h.listed := fun e he =>
    (walkFrom_roots_entries keyed hw e he).1
  have hlisted := @mem_walkFrom_roots h entries keyed hw t
  constructor
  · intro hmissed
    by_contra hfree
    obtain ⟨e, he, rfl⟩ := List.mem_map.1 (hlisted.2 ⟨ht, hfree⟩)
    simp only [Bool.not_eq_true', List.any_eq_false, beq_iff_eq] at hmissed
    exact hmissed e he rfl
  · intro hstranded
    simp only [Bool.not_eq_true', List.any_eq_false, beq_iff_eq]
    intro e he hid
    have heq : e.team = t := List.inj_on_of_nodup_map (nodup_ids keyed) (hteams e he) ht hid
    exact (hlisted.1 (heq ▸ List.mem_map_of_mem he)).2 hstranded

/-- Of the stranded teams, the one of the smallest identifier is found. -/
theorem missed?_eq_some_iff {entries : List WalkEntry} (hw : h.walkFrom h.roots = .ok entries)
    {id : TeamId} : h.missed? entries = some id ↔
      ∃ t, Stranded h.listed t ∧ (∀ s, Stranded h.listed s → t.id ≤ s.id) ∧ t.id = id := by
  rw [missed?, find?_eq_some_iff_least h.keys_ascending, ← keyed.map_values]
  constructor
  · rintro ⟨hmem, hmissed, hleast⟩
    obtain ⟨t, ht, rfl⟩ := List.mem_map.1 hmem
    refine ⟨t, (missed_iff_stranded keyed hw ht).1 hmissed, fun s hs => ?_, rfl⟩
    exact hleast s.id (List.mem_map_of_mem hs.mem) ((missed_iff_stranded keyed hw hs.mem).2 hs)
  · rintro ⟨t, ht, hleast, rfl⟩
    refine ⟨List.mem_map_of_mem ht.mem, (missed_iff_stranded keyed hw ht.mem).2 ht, ?_⟩
    intro j hj hmissed
    obtain ⟨s, hs, rfl⟩ := List.mem_map.1 hj
    exact hleast s ((missed_iff_stranded keyed hw hs).1 hmissed)

/-- **A walk of all teams is refused exactly if teams are stranded**, and the one of the smallest
identifier is named. -/
theorem walk_none_eq_error_iff {f : Failure} :
    h.walk none = .error f ↔
      ∃ t, Stranded h.listed t ∧ (∀ s, Stranded h.listed s → t.id ≤ s.id) ∧
        f = .parentCycle t.id := by
  obtain ⟨entries, hw⟩ := walkFrom_roots_ok keyed
  have hmissed := @missed?_eq_some_iff h keyed entries hw
  have hwalk : h.walk none = .error f ↔ ∃ id, h.missed? entries = some id ∧ f = .parentCycle id := by
    rw [walk, hw]
    cases hm : h.missed? entries with
    | none => simp [hm]
    | some id => simp [hm, eq_comm]
  rw [hwalk]
  constructor
  · rintro ⟨id, hid, rfl⟩
    obtain ⟨t, ht, hleast, rfl⟩ := hmissed.1 hid
    exact ⟨t, ht, hleast, rfl⟩
  · rintro ⟨t, ht, hleast, rfl⟩
    exact ⟨t.id, hmissed.2 ⟨t, ht, hleast, rfl⟩, rfl⟩

end Keyed

/-! ### Walks of a list -/

/-- A failure for a cycle names the team in its sentence and in its detail. -/
theorem report_parentCycle (id : TeamId) : (Failure.parentCycle id).report =
    ⟨.hierarchyCycle, s!"Team {id} is part of a parent cycle", [("team_id", toString id)]⟩ :=
  rfl

/-- A walk is refused as a cycle exactly if there is a team to blame for it. -/
theorem walk_eq_error_iff (keyed : h.teams.Keyed Team.id) {root : Option TeamId} {f : Failure} :
    (h.walk root = .error f ∧ f.report.code = .hierarchyCycle) ↔
      ∃ t, Blamed h.listed root t ∧ f = .parentCycle t.id := by
  cases root with
  | none =>
    rw [walk_none_eq_error_iff keyed]
    constructor
    · rintro ⟨⟨t, ht, hleast, rfl⟩, -⟩
      exact ⟨t, ⟨ht, hleast⟩, rfl⟩
    · rintro ⟨t, ⟨ht, hleast⟩, rfl⟩
      exact ⟨⟨t, ht, hleast, rfl⟩, rfl⟩
  | some id =>
    cases hget : h.get? id with
    | none =>
      -- the walk is refused, but not as a cycle
      rw [walk, hget]
      constructor
      · rintro ⟨hw, hcode⟩
        cases hw
        cases hcode
      · rintro ⟨t, ⟨rfl, hself⟩, -⟩
        have hfound : h.get? t.id = some t := keyed.get?_of_mem hself.stranded.mem
        rw [hget] at hfound
        cases hfound
    | some root =>
      have hid : root.id = id := keyed id root hget
      have hroot : root ∈ h.listed := Table.mem_values_iff.2 ⟨id, hget⟩
      rw [← hid, walk_some_eq_error_iff keyed hroot]
      constructor
      · rintro ⟨⟨hself, rfl⟩, -⟩
        exact ⟨root, ⟨rfl, hself⟩, rfl⟩
      · rintro ⟨t, ⟨hid', hself⟩, rfl⟩
        have heq : t = root :=
          List.inj_on_of_nodup_map (nodup_ids keyed) hself.stranded.mem hroot hid'
        exact ⟨⟨heq ▸ hself, by rw [heq]⟩, rfl⟩

/-- **The team that a refused walk of a list with distinct identifiers names.**  Where the walk is
from one team, it is that team, and it is among its own ancestors.  Where it is of all teams, it is
the one of the smallest identifier among those that are on a cycle or below one. -/
theorem walk_ofList_refused {teams : List Team} (distinct : (teams.map Team.id).Nodup)
    (root : Option TeamId) :
    (∀ f, (ofList teams).walk root = .error f → f.report.code = .hierarchyCycle →
        ∃ t ∈ teams, Blamed teams root t ∧ f.report = ⟨.hierarchyCycle,
          s!"Team {t.id} is part of a parent cycle", [("team_id", toString t.id)]⟩) ∧
      ∀ t, Blamed teams root t → (ofList teams).walk root = .error (.parentCycle t.id) := by
  have hlisted : ∀ t, t ∈ (ofList teams).listed ↔ t ∈ teams := fun t => mem_listed_ofList distinct
  have hblamed : Blamed (ofList teams).listed = Blamed teams := blamed_congr hlisted
  constructor
  · intro f hw hcode
    obtain ⟨t, ht, rfl⟩ := (walk_eq_error_iff (keyed_ofList teams)).1 ⟨hw, hcode⟩
    rw [hblamed] at ht
    exact ⟨t, ht.mem, ht, report_parentCycle t.id⟩
  · intro t ht
    rw [← hblamed] at ht
    exact ((walk_eq_error_iff (keyed_ofList teams)).2 ⟨t, ht, rfl⟩).1

/-- Two teams that are the parents of each other, a team below them, and one apart from them: the
walk of all teams and the walks from the two are refused, and each names one of the two. -/
theorem walk_ofList_two_parents :
    let teams : List Team := [⟨4, "Search", .team, some 3⟩, ⟨2, "Billing", .team, some 3⟩,
      ⟨1, "Products", .unit, none⟩, ⟨3, "Archive", .unit, some 2⟩]
    (teams.map Team.id).Nodup ∧
      ((ofList teams).walk none = .error (.parentCycle 2) ∧
        ∃ t ∈ teams, Blamed teams none t ∧ (Failure.parentCycle 2).report = ⟨.hierarchyCycle,
          s!"Team {t.id} is part of a parent cycle", [("team_id", toString t.id)]⟩) ∧
      (ofList teams).walk (some 3) = .error (.parentCycle 3) ∧
        ∃ t ∈ teams, Blamed teams (some 3) t ∧ (Failure.parentCycle 3).report = ⟨.hierarchyCycle,
          s!"Team {t.id} is part of a parent cycle", [("team_id", toString t.id)]⟩ := by
  intro teams
  have distinct : (teams.map Team.id).Nodup := by decide
  have hall : (ofList teams).walk none = .error (.parentCycle 2) := by rfl
  have hone : (ofList teams).walk (some 3) = .error (.parentCycle 3) := by rfl
  exact ⟨distinct, ⟨hall, (walk_ofList_refused distinct none).1 _ hall rfl⟩,
    hone, (walk_ofList_refused distinct (some 3)).1 _ hone rfl⟩

/-- **A team that is named need not be part of a cycle**: of a unit that is its own parent and a
team below it with a smaller identifier, the walk of all teams names the second. -/
theorem walk_ofList_off_cycle :
    let teams : List Team := [⟨1, "Search", .team, some 2⟩, ⟨2, "Products", .unit, some 2⟩]
    (teams.map Team.id).Nodup ∧
      (ofList teams).walk none = .error (.parentCycle 1) ∧
      (Failure.parentCycle 1).report = ⟨.hierarchyCycle, "Team 1 is part of a parent cycle",
        [("team_id", "1")]⟩ ∧
      ∀ t ∈ teams, t.id = 1 → ¬ Ancestor teams t t := by
  intro teams
  refine ⟨by decide, by rfl, by decide, ?_⟩
  intro t ht hid hself
  have hleaf : ∀ s ∈ teams, s.parent ≠ some 1 := by decide
  obtain ⟨s, ⟨-, hs, hparent⟩, -⟩ := Relation.TransGen.head'_iff.1 hself
  exact hleaf s hs (hid ▸ hparent)

end Hierarchy

end Objectives
