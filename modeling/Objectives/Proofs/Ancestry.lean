/- # Parents and ancestors

What the parents that teams name come to in a list of teams, with no tree put together.

Main definitions:

* `Teams.Parent`, `Teams.Ancestor` — the team that another names as its parent, if it is listed, and
  those that are reached by going on;
* `Teams.Siblings` — two teams with the same parent, or with none;
* `Teams.Acyclic` — no team is among its own ancestors;
* `Teams.Stranded` — a team is among its own ancestors, or below one that is.

Main results:

* `Teams.Stranded.child`, `Teams.Stranded.of_child` — a team is stranded exactly if its parent is;
* `Teams.induction_of_not_stranded`, `Teams.Acyclic.induction` — all teams that are not stranded are
  reached from those without a parent; in an acyclic list these are all teams;
* `Teams.encard_ancestors_child` — a team has one ancestor more than its parent;
* `Hierarchy.mem_roots`, `Hierarchy.mem_childrenOf` — **the hierarchy of a list finds the teams
  without a parent, and the children of each team**;
* `Hierarchy.ofList_of_perm` — it does not depend on the order of the list.
-/

import Mathlib.Data.Set.Card
import Mathlib.Logic.Relation
import Mathlib.Order.WellFoundedSet
import Objectives.Proofs.Table
import Objectives.Team.Hierarchy

set_option relaxedAutoImplicit false
set_option autoImplicit false

namespace Objectives

namespace Teams

/-! ### Relations in a list of teams -/

/-- Of two listed teams the first is the parent that the second names. -/
def Parent (teams : List Team) (p t : Team) : Prop :=
  p ∈ teams ∧ t ∈ teams ∧ t.parent = some p.id

/-- The first team is the parent of the second, or a parent further up. -/
def Ancestor (teams : List Team) : Team → Team → Prop :=
  Relation.TransGen (Parent teams)

/-- Two teams have the same parent, or neither has one. -/
def Siblings (teams : List Team) (a b : Team) : Prop :=
  ∀ p, Parent teams p a ↔ Parent teams p b

/-- The way up from a team never comes back to it. -/
def Acyclic (teams : List Team) : Prop :=
  ∀ t, ¬ Ancestor teams t t

variable {teams : List Team} {p q t : Team}

/-- The relations depend on which teams are listed alone. -/
theorem parent_congr {teams' : List Team} (h : ∀ t, t ∈ teams' ↔ t ∈ teams) :
    Parent teams' = Parent teams := by
  funext p t
  simp only [Parent, h]

theorem acyclic_congr {teams' : List Team} (h : ∀ t, t ∈ teams' ↔ t ∈ teams) :
    Acyclic teams' ↔ Acyclic teams := by
  rw [Acyclic, Acyclic, Ancestor, Ancestor, parent_congr h]

/-- Under distinct identifiers a team has at most one parent. -/
theorem Parent.unique (distinct : (teams.map Team.id).Nodup) (hp : Parent teams p t)
    (hq : Parent teams q t) : p = q := by
  have hid : p.id = q.id := by
    have h := hp.2.2
    rw [hq.2.2, Option.some_inj] at h
    exact h.symm
  exact List.inj_on_of_nodup_map distinct hp.1 hq.1 hid

/-! ### Counting ancestors -/

/-- The ancestors of a team are its parent and the ancestors of that. -/
theorem ancestors_child (distinct : (teams.map Team.id).Nodup) (h : Parent teams p t) :
    {a | Ancestor teams a t} = insert p {a | Ancestor teams a p} := by
  ext a
  rw [Set.mem_insert_iff]
  constructor
  · intro ha
    obtain ⟨q, haq, hq⟩ := Relation.TransGen.tail'_iff.1 ha
    rw [hq.unique distinct h] at haq
    rcases Relation.reflTransGen_iff_eq_or_transGen.1 haq with hpa | hap
    · exact .inl hpa.symm
    · exact .inr hap
  · rintro (rfl | ha)
    · exact Relation.TransGen.single h
    · exact Relation.TransGen.tail ha h

/-- A team has one ancestor more than its parent. -/
theorem encard_ancestors_child (distinct : (teams.map Team.id).Nodup) (h : Parent teams p t)
    (hp : ¬ Ancestor teams p p) :
    {a | Ancestor teams a t}.encard = {a | Ancestor teams a p}.encard + 1 := by
  rw [ancestors_child distinct h]
  exact Set.encard_insert_of_notMem hp

/-- A team without a parent has no ancestors. -/
theorem encard_ancestors_top (h : ∀ p, ¬ Parent teams p t) :
    {a | Ancestor teams a t}.encard = 0 := by
  rw [Set.encard_eq_zero, Set.eq_empty_iff_forall_notMem]
  intro a ha
  obtain ⟨p, -, hp⟩ := Relation.TransGen.tail'_iff.1 ha
  exact h p hp

/-- A child of a team that is not its own ancestor is not its own ancestor. -/
theorem not_ancestor_self_child (distinct : (teams.map Team.id).Nodup) (h : Parent teams p t)
    (hp : ¬ Ancestor teams p p) : ¬ Ancestor teams t t := by
  intro ht
  obtain ⟨q, htq, hq⟩ := Relation.TransGen.tail'_iff.1 ht
  rw [hq.unique distinct h] at htq
  exact hp (Relation.TransGen.head' h htq)

/-! ### Below a cycle -/

/-- A team is among its own ancestors, or one of its ancestors is. -/
def Stranded (teams : List Team) (t : Team) : Prop :=
  ∃ c, Ancestor teams c c ∧ Relation.ReflTransGen (Parent teams) c t

theorem Ancestor.stranded (h : Ancestor teams t t) : Stranded teams t :=
  ⟨t, h, .refl⟩

/-- A child of a stranded team is stranded. -/
theorem Stranded.child (h : Stranded teams p) (hparent : Parent teams p t) : Stranded teams t := by
  obtain ⟨c, hc, hcp⟩ := h
  exact ⟨c, hc, hcp.tail hparent⟩

/-- A stranded team has a parent, and that is stranded as well: on a cycle it is the next team, and
below a cycle it is still below it or on it. -/
theorem Stranded.parent (h : Stranded teams t) : ∃ p, Parent teams p t ∧ Stranded teams p := by
  obtain ⟨c, hc, hct⟩ := h
  rcases Relation.reflTransGen_iff_eq_or_transGen.1 hct with rfl | hct
  · obtain ⟨p, htp, hp⟩ := Relation.TransGen.tail'_iff.1 hc
    exact ⟨p, hp, t, hc, htp⟩
  · obtain ⟨p, hcp, hp⟩ := Relation.TransGen.tail'_iff.1 hct
    exact ⟨p, hp, c, hc, hcp⟩

theorem Stranded.mem (h : Stranded teams t) : t ∈ teams := by
  obtain ⟨p, hp, -⟩ := h.parent
  exact hp.2.1

/-- The parent of a stranded team is stranded. -/
theorem Stranded.of_child (distinct : (teams.map Team.id).Nodup) (h : Stranded teams t)
    (hparent : Parent teams p t) : Stranded teams p := by
  obtain ⟨q, hq, hstranded⟩ := h.parent
  exact hparent.unique distinct hq ▸ hstranded

/-! ### Induction from the top -/

/-- What holds of the teams without a parent and of the children of each team that it holds of, holds
of all teams that are not stranded. -/
theorem induction_of_not_stranded {motive : Team → Prop}
    (top : ∀ t ∈ teams, (∀ p, ¬ Parent teams p t) → motive t)
    (child : ∀ p t, Parent teams p t → motive p → motive t) :
    ∀ t ∈ teams, ¬ Stranded teams t → motive t := by
  -- above a team that is not stranded, being an ancestor is a strict order of finitely many teams
  have order : IsStrictOrder Team fun a t => Ancestor teams a t ∧ ¬ Stranded teams t :=
    { irrefl := fun _ h => h.2 h.1.stranded
      trans := fun _ _ _ h g => ⟨h.1.trans g.1, g.2⟩ }
  have wf : {t | t ∈ teams}.WellFoundedOn fun a t => Ancestor teams a t ∧ ¬ Stranded teams t :=
    (List.finite_toSet teams).wellFoundedOn
  intro t ht
  refine wf.induction (P := fun t => ¬ Stranded teams t → motive t) ht ?_
  intro t ht ih hfree
  by_cases hp : ∃ p, Parent teams p t
  · obtain ⟨p, hp⟩ := hp
    have hfree' : ¬ Stranded teams p := fun h => hfree (h.child hp)
    exact child p t hp (ih p hp.1 ⟨Relation.TransGen.single hp, hfree⟩ hfree')
  · rw [not_exists] at hp
    exact top t ht hp

/-- In an acyclic list, what holds of the teams without a parent and of the children of each team
that it holds of, holds of all teams. -/
theorem Acyclic.induction (h : Acyclic teams) {motive : Team → Prop}
    (top : ∀ t ∈ teams, (∀ p, ¬ Parent teams p t) → motive t)
    (child : ∀ p t, Parent teams p t → motive p → motive t) : ∀ t ∈ teams, motive t := by
  intro t ht
  refine induction_of_not_stranded top child t ht ?_
  rintro ⟨c, hc, -⟩
  exact h c hc

end Teams

/-! ### The hierarchy of a list -/

namespace Hierarchy

open Teams

/-- The teams that are found. -/
def listed (h : Hierarchy) : List Team := h.teams.values

section Lists

variable {h : Hierarchy} {p t : Team}

/-- The teams of a hierarchy have distinct identifiers, if they are found under their own. -/
theorem nodup_ids (keyed : h.teams.Keyed Team.id) : (h.listed.map Team.id).Nodup := by
  rw [listed, keyed.map_values]
  exact h.teams.nodup_keys

theorem parent?_eq_some_iff (keyed : h.teams.Keyed Team.id) (hp : p ∈ h.listed)
    (ht : t ∈ h.listed) : h.parent? t = some p.id ↔ Parent h.listed p t := by
  rw [parent?, Option.filter_eq_some_iff]
  constructor
  · rintro ⟨hparent, -⟩
    exact ⟨hp, ht, hparent⟩
  · rintro ⟨-, -, hparent⟩
    exact ⟨hparent, Table.contains_of_get? (keyed.get?_of_mem hp)⟩

theorem parent?_eq_none_iff (keyed : h.teams.Keyed Team.id) (ht : t ∈ h.listed) :
    h.parent? t = none ↔ ∀ p, ¬ Parent h.listed p t := by
  rw [parent?, Option.filter_eq_none_iff]
  constructor
  · rintro hnone p ⟨hp, -, hparent⟩
    exact hnone p.id hparent (Table.contains_of_get? (keyed.get?_of_mem hp))
  · intro hnone id hid hcontains
    obtain ⟨p, hp⟩ := Table.contains_iff.1 hcontains
    refine hnone p ⟨Table.mem_values_iff.2 ⟨id, hp⟩, ht, ?_⟩
    rw [hid, keyed id p hp]

/-- **The roots are the teams without a parent.** -/
theorem mem_roots (keyed : h.teams.Keyed Team.id) :
    t ∈ h.roots ↔ t ∈ h.listed ∧ ∀ p, ¬ Parent h.listed p t := by
  rw [roots, mem_sortBy, List.mem_filter, beq_iff_eq]
  constructor
  · rintro ⟨ht, hnone⟩
    exact ⟨ht, (parent?_eq_none_iff keyed ht).1 hnone⟩
  · rintro ⟨ht, hnone⟩
    exact ⟨ht, (parent?_eq_none_iff keyed ht).2 hnone⟩

/-- **The children of a team are the teams whose parent it is.** -/
theorem mem_childrenOf (keyed : h.teams.Keyed Team.id) (hp : p ∈ h.listed) :
    t ∈ h.childrenOf p.id ↔ Parent h.listed p t := by
  rw [childrenOf, mem_sortBy, List.mem_filter, beq_iff_eq]
  constructor
  · rintro ⟨ht, hsome⟩
    exact (parent?_eq_some_iff keyed hp ht).1 hsome
  · intro hparent
    exact ⟨hparent.2.1, (parent?_eq_some_iff keyed hp hparent.2.1).2 hparent⟩

theorem nodup_roots (keyed : h.teams.Keyed Team.id) : h.roots.Nodup :=
  (sortBy_perm _ _).nodup_iff.2 (keyed.nodup_values.filter _)

theorem nodup_childrenOf (keyed : h.teams.Keyed Team.id) (id : TeamId) :
    (h.childrenOf id).Nodup :=
  (sortBy_perm _ _).nodup_iff.2 (keyed.nodup_values.filter _)

end Lists

/-- Teams are found under their own identifiers. -/
theorem keyed_ofList (teams : List Team) : (ofList teams).teams.Keyed Team.id := by
  intro id t hget
  rw [ofList, Table.get?_ofList, Option.map_eq_some_iff] at hget
  obtain ⟨e, hfind, rfl⟩ := hget
  have hid : e.1 = id := by simpa using List.find?_some hfind
  obtain ⟨t, -, rfl⟩ := List.mem_map.1 (List.mem_reverse.1 (List.mem_of_find?_eq_some hfind))
  exact hid

section OfList

variable {teams : List Team} (distinct : (teams.map Team.id).Nodup)
include distinct

/-- Of a list with distinct identifiers every team is found. -/
theorem get?_ofList_eq_some_iff {id : TeamId} {t : Team} :
    (ofList teams).get? id = some t ↔ t ∈ teams ∧ t.id = id := by
  have hkeys : ((teams.map fun t => (t.id, t)).map Prod.fst).Nodup := by
    rwa [List.map_map]
  rw [get?, ofList, Table.get?_ofList_eq_some_iff hkeys, List.mem_map]
  constructor
  · rintro ⟨t', ht, heq⟩
    rw [Prod.mk.injEq] at heq
    rw [← heq.2]
    exact ⟨ht, heq.1⟩
  · rintro ⟨ht, rfl⟩
    exact ⟨t, ht, rfl⟩

theorem mem_listed_ofList {t : Team} : t ∈ (ofList teams).listed ↔ t ∈ teams := by
  rw [listed, Table.mem_values_iff]
  constructor
  · rintro ⟨id, hget⟩
    exact ((get?_ofList_eq_some_iff distinct).1 hget).1
  · intro ht
    exact ⟨t.id, (get?_ofList_eq_some_iff distinct).2 ⟨ht, rfl⟩⟩

/-- A hierarchy does not depend on the order of the list. -/
theorem ofList_of_perm {teams' : List Team} (perm : teams'.Perm teams) :
    ofList teams' = ofList teams := by
  have distinct' : (teams'.map Team.id).Nodup := (perm.map Team.id).nodup_iff.2 distinct
  have htables : (ofList teams').teams = (ofList teams).teams := by
    apply Table.ext_get?
    intro id
    apply Option.ext
    intro t
    have hnew := @get?_ofList_eq_some_iff teams' distinct' id t
    have hold := @get?_ofList_eq_some_iff teams distinct id t
    rw [get?] at hnew hold
    rw [hnew, hold, perm.mem_iff]
  cases h' : ofList teams'
  cases h : ofList teams
  rw [h', h] at htables
  cases htables
  rfl

end OfList

end Hierarchy

end Objectives
