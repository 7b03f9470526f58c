/- # The teams listed with a goal

The teams that carry a goal are listed with it by looking up the owner and the teams with a share.
Nothing is asked of the shares: they may name a team more than once, name the owner, and name teams
that are not in the hierarchy.

Main definitions:

* `FirstShare` — the weight of the first share that names a team;
* `ListsContributors` — what a list of the teams that carry a goal has to be.

Main results:

* `nodup_distinctBy`, `mem_map_distinctBy` — without later repetitions every key occurs once;
* `find?_of_mem_distinctBy` — what is left under a key is what the list has there first;
* `exists_contributingTeams_eq` — the teams listed with a goal are those of the hierarchy that own
  it or share in it, each once and in the order of teams;
* `ListsContributors.unique`, `ListsContributors.of_perm` — there is one list of the teams that carry a
  goal, and it does not depend on the order of shares that name no team twice;
* `contributingTeams_ofList` — **the teams that are listed with a goal are that list**.
-/

import Objectives.Goal.Share
import Objectives.Proofs.Ancestry

set_option relaxedAutoImplicit false
set_option autoImplicit false

namespace Objectives

/-! ### Lists without repetitions -/

section Distinct

variable {α β : Type} [BEq β] [LawfulBEq β]

/-- A key occurs if it occurs in the list and has not been seen. -/
theorem mem_map_distinctFrom {key : α → β} {seen : List β} {list : List α} {k : β} :
    k ∈ (distinctFrom key seen list).map key ↔ k ∈ list.map key ∧ k ∉ seen := by
  induction list generalizing seen with
  | nil => simp [distinctFrom]
  | cons x rest ih =>
    unfold distinctFrom
    split
    · rename_i hseen
      have hx : key x ∈ seen := by simpa using hseen
      rw [ih, List.map_cons, List.mem_cons]
      constructor
      · rintro ⟨hk, hfresh⟩
        exact ⟨.inr hk, hfresh⟩
      · rintro ⟨rfl | hk, hfresh⟩
        · exact absurd hx hfresh
        · exact ⟨hk, hfresh⟩
    · rename_i hseen
      have hx : key x ∉ seen := by simpa using hseen
      rw [List.map_cons, List.map_cons, List.mem_cons, List.mem_cons, ih, List.mem_cons, not_or]
      constructor
      · rintro (rfl | ⟨hk, -, hfresh⟩)
        · exact ⟨.inl rfl, hx⟩
        · exact ⟨.inr hk, hfresh⟩
      · rintro ⟨rfl | hk, hfresh⟩
        · exact .inl rfl
        · by_cases hkx : k = key x
          · exact .inl hkx
          · exact .inr ⟨hk, hkx, hfresh⟩

theorem nodup_distinctFrom (key : α → β) (seen : List β) (list : List α) :
    ((distinctFrom key seen list).map key).Nodup := by
  induction list generalizing seen with
  | nil => exact List.nodup_nil
  | cons x rest ih =>
    unfold distinctFrom
    split
    · exact ih seen
    · rw [List.map_cons, List.nodup_cons]
      refine ⟨fun hmem => ?_, ih (key x :: seen)⟩
      exact (mem_map_distinctFrom.1 hmem).2 (List.mem_cons_self ..)

/-- Without later repetitions the keys are those of the list. -/
theorem mem_map_distinctBy {key : α → β} {list : List α} {k : β} :
    k ∈ (distinctBy key list).map key ↔ k ∈ list.map key := by
  rw [distinctBy, mem_map_distinctFrom]
  exact and_iff_left List.not_mem_nil

/-- Without later repetitions no key occurs twice. -/
theorem nodup_distinctBy (key : α → β) (list : List α) :
    ((distinctBy key list).map key).Nodup :=
  nodup_distinctFrom key [] list

omit [LawfulBEq β] in
theorem distinctFrom_sublist (key : α → β) (seen : List β) (list : List α) :
    (distinctFrom key seen list).Sublist list := by
  induction list generalizing seen with
  | nil => exact .slnil
  | cons x rest ih =>
    unfold distinctFrom
    split
    · exact (ih seen).cons x
    · exact (ih (key x :: seen)).cons_cons x

omit [LawfulBEq β] in
/-- What is left without later repetitions stands in the list. -/
theorem mem_of_mem_distinctBy {key : α → β} {list : List α} {x : α} (h : x ∈ distinctBy key list) :
    x ∈ list :=
  (distinctFrom_sublist key [] list).subset h

/-- A key that has not been seen is found where it is found in the list. -/
theorem find?_distinctFrom {key : α → β} {seen : List β} {list : List α} {k : β} (h : k ∉ seen) :
    ((distinctFrom key seen list).find? fun x => key x == k) = list.find? fun x => key x == k := by
  induction list generalizing seen with
  | nil => rfl
  | cons x rest ih =>
    unfold distinctFrom
    split
    · rename_i hseen
      have hx : (key x == k) = false := by
        rw [beq_eq_false_iff_ne]
        rintro rfl
        exact h (by simpa using hseen)
      rw [ih h]
      simp only [List.find?_cons, hx]
    · cases hx : key x == k with
      | true => simp only [List.find?_cons, hx]
      | false =>
        have hk : k ∉ key x :: seen := by
          rw [List.mem_cons, not_or]
          exact ⟨(beq_eq_false_iff_ne.1 hx).symm, h⟩
        simp only [List.find?_cons, hx]
        exact ih hk

/-- What is left without later repetitions is what stands first in the list under its key. -/
theorem find?_of_mem_distinctBy {key : α → β} {list : List α} {x : α}
    (h : x ∈ distinctBy key list) : (list.find? fun y => key y == key x) = some x := by
  rw [← find?_distinctFrom (List.not_mem_nil : key x ∉ [])]
  cases hfind : (distinctFrom key [] list).find? fun y => key y == key x with
  | none => exact absurd (beq_self_eq_true _) (List.find?_eq_none.1 hfind x h)
  | some y =>
    have hkey : key y = key x := by simpa using List.find?_some hfind
    have hy := List.mem_of_find?_eq_some hfind
    exact congrArg some (List.inj_on_of_nodup_map (nodup_distinctBy key list) hy h hkey)

omit [LawfulBEq β] in
/-- The first of the list stays. -/
theorem head?_distinctBy (key : α → β) (list : List α) :
    (distinctBy key list).head? = list.head? := by
  cases list with
  | nil => rfl
  | cons x rest => rfl

end Distinct

/-! ### Teams listed with a goal -/

section Contributors

variable {h : Hierarchy} (keyed : h.teams.Keyed Team.id)
include keyed

theorem Hierarchy.get?_eq_some_iff {id : TeamId} {t : Team} :
    h.get? id = some t ↔ t ∈ h.listed ∧ t.id = id := by
  constructor
  · intro hget
    exact ⟨Table.mem_values_iff.2 ⟨id, hget⟩, keyed id t hget⟩
  · rintro ⟨ht, rfl⟩
    exact keyed.get?_of_mem ht

/-- **The teams listed with a goal** are those of the hierarchy that own it or share in it, each
once and in the order of teams. -/
theorem exists_contributingTeams_eq (goal : Goal) (shares : List Share) :
    ∃ teams : List Team,
      contributingTeams goal shares h = teams.map (contributingTeam goal shares) ∧
      (teams.map Team.id).Nodup ∧ (teams.Pairwise fun a b => Team.le a b = true) ∧
      ∀ t, t ∈ teams ↔ t ∈ h.listed ∧ t.id ∈ goal.team :: shares.map Share.team := by
  have hids := nodup_distinctBy id (goal.team :: shares.map Share.team)
  have hid : ∀ i, i ∈ (distinctBy id (goal.team :: shares.map Share.team)).map id ↔
      i ∈ (goal.team :: shares.map Share.team).map id := fun i => mem_map_distinctBy
  rw [List.map_id] at hids
  simp only [List.map_id] at hid
  have hnodup : ((distinctBy id (goal.team :: shares.map Share.team)).filterMap h.get?).Nodup := by
    refine hids.filterMap ?_
    intro a a' t ha ha'
    rw [← ((Hierarchy.get?_eq_some_iff keyed).1 ha).2, ((Hierarchy.get?_eq_some_iff keyed).1 ha').2]
  have hmem : ∀ t, t ∈ sortBy Team.le
      ((distinctBy id (goal.team :: shares.map Share.team)).filterMap h.get?) ↔
        t ∈ h.listed ∧ t.id ∈ goal.team :: shares.map Share.team := by
    intro t
    rw [mem_sortBy, List.mem_filterMap]
    constructor
    · rintro ⟨i, hi, hget⟩
      obtain ⟨ht, rfl⟩ := (Hierarchy.get?_eq_some_iff keyed).1 hget
      exact ⟨ht, (hid _).1 hi⟩
    · rintro ⟨ht, hi⟩
      exact ⟨t.id, (hid _).2 hi, (Hierarchy.get?_eq_some_iff keyed).2 ⟨ht, rfl⟩⟩
  refine ⟨_, rfl, ?_, sortBy_pairwise Team.le_trans Team.le_total _, hmem⟩
  refine List.Nodup.map_on ?_ ((sortBy_perm _ _).nodup_iff.2 hnodup)
  intro a ha b hb hab
  exact List.inj_on_of_nodup_map (Hierarchy.nodup_ids keyed) ((hmem a).1 ha).1 ((hmem b).1 hb).1 hab

end Contributors

/-! ### First shares -/

/-- The first of some shares that name a team has a weight. -/
def FirstShare (shares : List Share) (team : TeamId) (weight : Weight) : Prop :=
  ∃ before share after, shares = before ++ share :: after ∧ (∀ s ∈ before, s.team ≠ team) ∧
    share.team = team ∧ share.weight = weight

section FirstShare

variable {shares : List Share} {team : TeamId} {weight : Weight}

theorem firstShare_iff_find? : FirstShare shares team weight ↔
    ((shares.find? fun s => s.team == team).map Share.weight) = some weight := by
  rw [Option.map_eq_some_iff]
  constructor
  · rintro ⟨before, share, after, rfl, hbefore, rfl, rfl⟩
    refine ⟨share, ?_, rfl⟩
    rw [List.find?_eq_some_iff_append]
    refine ⟨beq_self_eq_true _, before, after, rfl, fun s hs => ?_⟩
    simpa using hbefore s hs
  · rintro ⟨share, hfind, rfl⟩
    obtain ⟨hteam, before, after, rfl, hbefore⟩ := List.find?_eq_some_iff_append.1 hfind
    refine ⟨before, share, after, rfl, fun s hs => ?_, beq_iff_eq.1 hteam, rfl⟩
    simpa using hbefore s hs

/-- Where no team is named twice, the first share that names a team is the only one. -/
theorem firstShare_iff_of_nodup (distinct : (shares.map Share.team).Nodup) :
    FirstShare shares team weight ↔ ∃ s ∈ shares, s.team = team ∧ s.weight = weight := by
  constructor
  · rintro ⟨before, share, after, rfl, -, hteam, hweight⟩
    exact ⟨share, List.mem_append_right _ (List.mem_cons_self ..), hteam, hweight⟩
  · rintro ⟨share, hshare, rfl, rfl⟩
    obtain ⟨before, after, rfl⟩ := List.append_of_mem hshare
    rw [List.map_append, List.map_cons, List.nodup_middle, List.nodup_cons] at distinct
    refine ⟨before, share, after, rfl, fun s hs hsame => distinct.1 ?_, rfl, rfl⟩
    exact List.mem_append_left _ (hsame ▸ List.mem_map_of_mem hs)

/-- The weight of a goal for a team that does not own it is that of its first share, if there is one.
-/
theorem effectiveWeight_eq (goal : Goal) (team : TeamId) (shares : List Share) :
    effectiveWeight goal team shares =
      if goal.isOwnedBy team then goal.weight
      else ((shares.find? fun s => s.team == team).map Share.weight).getD goal.weight := by
  unfold effectiveWeight
  cases shares.find? fun s => s.team == team <;> rfl

/-- The weight of a goal is its own for the owner, whatever the shares are. -/
theorem effectiveWeight_owner (goal : Goal) (shares : List Share) :
    effectiveWeight goal goal.team shares = goal.weight := by
  rw [effectiveWeight_eq, Goal.isOwnedBy, beq_self_eq_true, if_pos rfl]

/-- The weight of a goal for another team that some share names is that of the first such share. -/
theorem firstShare_effectiveWeight {goal : Goal} (hother : team ≠ goal.team)
    (hnamed : team ∈ shares.map Share.team) :
    FirstShare shares team (effectiveWeight goal team shares) := by
  have howner : ¬ goal.isOwnedBy team = true := by
    rw [Goal.isOwnedBy, beq_iff_eq]
    exact hother.symm
  rw [firstShare_iff_find?, effectiveWeight_eq, if_neg howner]
  cases hfind : shares.find? fun s => s.team == team with
  | some share => rfl
  | none =>
    obtain ⟨s, hs, rfl⟩ := List.mem_map.1 hnamed
    exact absurd (beq_self_eq_true _) (List.find?_eq_none.1 hfind s hs)

/-- A team has one first share. -/
theorem FirstShare.unique {weight' : Weight} (h : FirstShare shares team weight)
    (h' : FirstShare shares team weight') : weight = weight' :=
  Option.some.inj ((firstShare_iff_find?.1 h).symm.trans (firstShare_iff_find?.1 h'))

end FirstShare

/-! ### What is listed with a goal -/

/-- A list holds the teams that carry a goal: those of the hierarchy that own it or that some share
names, each once, by name and then by identifier, with the weight that each carries. -/
structure ListsContributors (goal : Goal) (shares : List Share) (h : Hierarchy)
    (list : List ContributingTeam) : Prop where
  mem_iff : ∀ id, id ∈ list.map ContributingTeam.team ↔
    (∃ t, h.get? id = some t) ∧ (id = goal.team ∨ ∃ s ∈ shares, s.team = id)
  once : (list.map ContributingTeam.team).Nodup
  ordered : list.Pairwise fun a b => a.name < b.name ∨ a.name = b.name ∧ a.team < b.team
  described : ∀ c ∈ list, ∃ t, h.get? c.team = some t ∧ c.name = t.name ∧ c.type = t.type
  weight_owner : ∀ c ∈ list, c.team = goal.team → c.weight = goal.weight
  weight_other : ∀ c ∈ list, c.team ≠ goal.team → FirstShare shares c.team c.weight
  isOwner_iff : ∀ c ∈ list, c.isOwner = true ↔ c.team = goal.team

namespace ListsContributors

variable {goal : Goal} {shares : List Share} {h : Hierarchy} {list list' : List ContributingTeam}

theorem mem_carriers_iff {id : TeamId} :
    id ∈ goal.team :: shares.map Share.team ↔ id = goal.team ∨ ∃ s ∈ shares, s.team = id := by
  rw [List.mem_cons, List.mem_map]

section Keyed

variable (keyed : h.teams.Keyed Team.id)
include keyed

/-- What is listed is the team of the hierarchy as listed with the goal. -/
theorem eq_contributingTeam (hlist : ListsContributors goal shares h list) {c : ContributingTeam}
    (hc : c ∈ list) : ∃ t, h.get? c.team = some t ∧ c = contributingTeam goal shares t := by
  obtain ⟨t, hget, hname, htype⟩ := hlist.described c hc
  have hid : t.id = c.team := ((Hierarchy.get?_eq_some_iff keyed).1 hget).2
  have hweight : c.weight = effectiveWeight goal t.id shares := by
    rw [hid]
    by_cases howner : c.team = goal.team
    · rw [howner, effectiveWeight_owner, hlist.weight_owner c hc howner]
    · have hcarries := ((hlist.mem_iff c.team).1 (List.mem_map_of_mem hc)).2
      have hnamed : c.team ∈ shares.map Share.team := List.mem_map.2 (hcarries.resolve_left howner)
      exact (hlist.weight_other c hc howner).unique (firstShare_effectiveWeight howner hnamed)
  have howner : c.isOwner = goal.isOwnedBy t.id := by
    rw [Bool.eq_iff_iff, hlist.isOwner_iff c hc, Goal.isOwnedBy, beq_iff_eq, hid, eq_comm]
  refine ⟨t, hget, ?_⟩
  cases c
  simp only at hid hname htype hweight howner
  rw [contributingTeam, hid, hname, htype, hweight, howner, hid]

/-- Two lists that hold the teams that carry a goal hold the same. -/
theorem mem_of_mem (hlist : ListsContributors goal shares h list)
    (hlist' : ListsContributors goal shares h list') {c : ContributingTeam} (hc : c ∈ list) :
    c ∈ list' := by
  obtain ⟨t, hget, hcontributes⟩ := hlist.eq_contributingTeam keyed hc
  have hteam : c.team ∈ list'.map ContributingTeam.team :=
    (hlist'.mem_iff c.team).2 ((hlist.mem_iff c.team).1 (List.mem_map_of_mem hc))
  obtain ⟨c', hc', hsame⟩ := List.mem_map.1 hteam
  obtain ⟨t', hget', hcontributes'⟩ := hlist'.eq_contributingTeam keyed hc'
  rw [hsame, hget, Option.some_inj] at hget'
  rwa [hcontributes, hget', ← hcontributes']

/-- There is one list of the teams that carry a goal. -/
theorem unique (hlist : ListsContributors goal shares h list)
    (hlist' : ListsContributors goal shares h list') : list = list' := by
  have hperm : list.Perm list' := by
    rw [List.perm_ext_iff_of_nodup hlist.once.of_map hlist'.once.of_map]
    exact fun c => ⟨hlist.mem_of_mem keyed hlist', hlist'.mem_of_mem keyed hlist⟩
  refine List.Perm.eq_of_pairwise ?_ hlist.ordered hlist'.ordered hperm
  rintro a b - - (hab | ⟨hab, hid⟩) (hba | ⟨hba, hid'⟩)
  · exact absurd hba (String.lt_asymm hab)
  · exact absurd hab (hba ▸ String.lt_irrefl _)
  · exact absurd hba (hab ▸ String.lt_irrefl _)
  · exact absurd hid' (Int.lt_asymm hid)

end Keyed

/-- The order of the shares makes no difference, if they name no team twice. -/
theorem of_perm {shares' : List Share} (perm : shares'.Perm shares)
    (distinct : (shares.map Share.team).Nodup) (hlist : ListsContributors goal shares' h list) :
    ListsContributors goal shares h list := by
  have distinct' : (shares'.map Share.team).Nodup := (perm.map Share.team).nodup_iff.2 distinct
  refine { hlist with mem_iff := fun id => ?_, weight_other := fun c hc hother => ?_ }
  · simp only [hlist.mem_iff id, perm.mem_iff]
  · have hfirst := (firstShare_iff_of_nodup distinct').1 (hlist.weight_other c hc hother)
    simp only [perm.mem_iff] at hfirst
    exact (firstShare_iff_of_nodup distinct).2 hfirst

end ListsContributors

/-- The teams listed with a goal are those that carry it. -/
theorem listsContributors_contributingTeams {h : Hierarchy} (keyed : h.teams.Keyed Team.id)
    (goal : Goal) (shares : List Share) :
    ListsContributors goal shares h (contributingTeams goal shares h) := by
  obtain ⟨teams, heq, hnodup, hsorted, hmem⟩ := exists_contributingTeams_eq keyed goal shares
  have hids : (teams.map (contributingTeam goal shares)).map ContributingTeam.team =
      teams.map Team.id := by
    rw [List.map_map]
    rfl
  have hof : ∀ c ∈ teams.map (contributingTeam goal shares), ∃ t,
      c = contributingTeam goal shares t ∧ h.get? t.id = some t ∧
        t.id ∈ goal.team :: shares.map Share.team := by
    intro c hc
    obtain ⟨t, ht, rfl⟩ := List.mem_map.1 hc
    obtain ⟨hlisted, hcarries⟩ := (hmem t).1 ht
    exact ⟨t, rfl, (Hierarchy.get?_eq_some_iff keyed).2 ⟨hlisted, rfl⟩, hcarries⟩
  rw [heq]
  constructor
  case mem_iff =>
    intro id
    rw [← ListsContributors.mem_carriers_iff]
    constructor
    · intro hid
      obtain ⟨c, hc, rfl⟩ := List.mem_map.1 hid
      obtain ⟨t, rfl, hget, hcarries⟩ := hof c hc
      exact ⟨⟨t, hget⟩, hcarries⟩
    · rintro ⟨⟨t, hget⟩, hcarries⟩
      obtain ⟨hlisted, rfl⟩ := (Hierarchy.get?_eq_some_iff keyed).1 hget
      rw [hids]
      exact List.mem_map_of_mem ((hmem t).2 ⟨hlisted, hcarries⟩)
  case once => rwa [hids]
  case ordered =>
    rw [List.pairwise_map]
    -- distinct identifiers make the order of teams a strict one
    refine (hsorted.and (List.pairwise_map.1 hnodup)).imp ?_
    rintro a b ⟨hle, hne⟩
    simp only [Team.le, Bool.or_eq_true, Bool.and_eq_true, decide_eq_true_eq, beq_iff_eq] at hle
    exact hle.imp_right (And.imp_right fun hid => lt_of_le_of_ne hid hne)
  case described =>
    intro c hc
    obtain ⟨t, rfl, hget, -⟩ := hof c hc
    exact ⟨t, hget, rfl, rfl⟩
  case weight_owner =>
    intro c hc howner
    obtain ⟨t, rfl, -, -⟩ := hof c hc
    have howner : t.id = goal.team := howner
    show effectiveWeight goal t.id shares = goal.weight
    rw [howner, effectiveWeight_owner]
  case weight_other =>
    intro c hc hother
    obtain ⟨t, rfl, -, hcarries⟩ := hof c hc
    have hother : t.id ≠ goal.team := hother
    have hnamed := (List.mem_cons.1 hcarries).resolve_left hother
    exact firstShare_effectiveWeight hother hnamed
  case isOwner_iff =>
    intro c hc
    obtain ⟨t, rfl, -, -⟩ := hof c hc
    show (goal.team == t.id) = true ↔ t.id = goal.team
    rw [beq_iff_eq, eq_comm]

/-- **The teams listed with a goal** are the teams of the hierarchy that own it or that some share
names, each once and in the order of teams, with the goal's own weight for the owner and that of the
first share for any other; there is no other such list, so the order of the shares makes no difference
if they name no team twice. -/
theorem contributingTeams_ofList (goal : Goal) (shares : List Share) (teams : List Team) :
    ListsContributors goal shares (.ofList teams) (contributingTeams goal shares (.ofList teams)) ∧
    (∀ list, ListsContributors goal shares (.ofList teams) list →
      list = contributingTeams goal shares (.ofList teams)) ∧
    ∀ shares' : List Share, shares'.Perm shares → (shares.map Share.team).Nodup →
      contributingTeams goal shares' (.ofList teams) =
        contributingTeams goal shares (.ofList teams) := by
  have keyed := Hierarchy.keyed_ofList teams
  have hlist := listsContributors_contributingTeams keyed goal shares
  refine ⟨hlist, fun list h => h.unique keyed hlist, fun shares' perm distinct => ?_⟩
  have hlist' := listsContributors_contributingTeams keyed goal shares'
  exact (hlist'.of_perm perm distinct).unique keyed hlist

/-- Two teams of the same name own a goal and share in it; a third team is named twice, the owner and a
team that is not listed are named, too. -/
theorem contributingTeams_ofList_equal_names :
    let teams : List Team :=
      [⟨1, "Beta", .team, none⟩, ⟨2, "Alpha", .unit, none⟩, ⟨3, "Beta", .team, some 2⟩]
    let goal : Goal :=
      ⟨10, 3, 1, "Cut latency", "", .p1, ⟨60, by decide⟩, .delivery, .speedEfficiency, "", 3⟩
    let shares : List Share :=
      [⟨10, 1, ⟨30, by decide⟩, 3⟩, ⟨10, 9, ⟨10, by decide⟩, 3⟩, ⟨10, 3, ⟨5, by decide⟩, 3⟩,
        ⟨10, 2, ⟨25, by decide⟩, 3⟩]
    let again : List Share := shares ++ [⟨10, 2, ⟨90, by decide⟩, 3⟩]
    let list : List ContributingTeam :=
      [⟨2, "Alpha", .unit, ⟨25, by decide⟩, false⟩, ⟨1, "Beta", .team, ⟨30, by decide⟩, false⟩,
        ⟨3, "Beta", .team, ⟨60, by decide⟩, true⟩]
    ListsContributors goal again (.ofList teams) list ∧
      list = contributingTeams goal again (.ofList teams) ∧
      shares.reverse.Perm shares ∧ (shares.map Share.team).Nodup ∧
      contributingTeams goal shares.reverse (.ofList teams) =
        contributingTeams goal shares (.ofList teams) := by
  intro teams goal shares again list
  have hagain : contributingTeams goal again (.ofList teams) = list := by decide +kernel
  have hlist : ListsContributors goal again (.ofList teams) list :=
    hagain ▸ (contributingTeams_ofList goal again teams).1
  have hperm : shares.reverse.Perm shares := shares.reverse_perm
  have distinct : (shares.map Share.team).Nodup := by decide
  exact ⟨hlist, (contributingTeams_ofList goal again teams).2.1 list hlist, hperm, distinct,
    (contributingTeams_ofList goal shares teams).2.2 shares.reverse hperm distinct⟩

end Objectives
