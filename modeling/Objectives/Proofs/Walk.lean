/- # Walks of a hierarchy

A walk keeps the teams that it has still to visit on a pile.  Whatever lies on the pile, the walk
lists each entry of it with all that is below it, so that the list can be described by recursion on
the tree, without the pile.

Main definitions:

* `Hierarchy.Lists` — what a walk lists for pending entries;
* `Hierarchy.Frontier` — the invariant of a walk: no team that is pending has been seen;
* `Teams.IsWalk` — a list is the walk of a list of teams.

Main results:

* `Hierarchy.visit_lists`, `Hierarchy.visit_ok` — a walk that succeeds lists what it should, and it
  succeeds if no team is met twice;
* `Hierarchy.visit_succ` — the bound on the number of visits cuts no walk short;
* `Hierarchy.Lists.block` — the entries below an entry follow it up to the next that is not deeper;
* `Hierarchy.walk_isWalk`, `Hierarchy.exists_walk_iff` — a walk of all teams that succeeds is the
  walk of the teams, and it succeeds exactly if the teams are acyclic;
* `Hierarchy.mem_walkFrom_roots` — a walk from the roots lists the teams that are not stranded;
* `Hierarchy.exists_walk_some` — a walk from one team lists that team and those below it;
* `Hierarchy.walk_ofList` — **the walk of all teams of a list, in any order**.
-/

import Mathlib.Data.List.TakeWhile
import Objectives.Proofs.Ancestry

set_option relaxedAutoImplicit false
set_option autoImplicit false

namespace Objectives

/-- A list of entries is the walk of a list of teams. -/
structure Teams.IsWalk (teams : List Team) (entries : List WalkEntry) : Prop where
  /-- Every team is listed once, and nothing else. -/
  perm : (entries.map WalkEntry.team).Perm teams
  /-- The depth of a team is the number of its ancestors. -/
  depth : ∀ e ∈ entries, {a | Teams.Ancestor teams a e.team}.encard = e.depth
  /-- After a team come those below it, up to the next that is not deeper. -/
  block : ∀ before e after, entries = before ++ e :: after → ∀ t,
    t ∈ (after.takeWhile fun x => e.depth < x.depth).map WalkEntry.team ↔
      Teams.Ancestor teams e.team t
  /-- Teams with one parent, and those without a parent, stand in their order. -/
  ordered : entries.Pairwise fun a b =>
    Teams.Siblings teams a.team b.team → Team.le a.team b.team = true

/-- A walk does not depend on the order in which the teams are given. -/
theorem Teams.IsWalk.of_perm {teams teams' : List Team} {entries : List WalkEntry}
    (h : Teams.IsWalk teams entries) (perm : teams.Perm teams') : Teams.IsWalk teams' entries := by
  have hparent : Teams.Parent teams = Teams.Parent teams' :=
    Teams.parent_congr fun t => perm.mem_iff
  obtain ⟨hperm, hdepth, hblock, hordered⟩ := h
  simp only [Teams.Ancestor, Teams.Siblings, hparent] at hdepth hblock hordered
  exact ⟨hperm.trans perm, hdepth, hblock, hordered⟩

namespace Hierarchy

open Teams

/-! ### What is listed for pending entries -/

/-- The entries of the children of a walked team. -/
def below (h : Hierarchy) (e : WalkEntry) : List WalkEntry :=
  (h.childrenOf e.team.id).map fun t => ⟨t, e.depth + 1⟩

/-- A walk lists every pending entry with all that is below it, and then the others. -/
inductive Lists (h : Hierarchy) : List WalkEntry → List WalkEntry → Prop
  | nil : Lists h [] []
  | cons {e : WalkEntry} {pending block rest : List WalkEntry} :
      Lists h (h.below e) block → Lists h pending rest → Lists h (e :: pending) (e :: (block ++ rest))

variable {h : Hierarchy} {pending out : List WalkEntry}

/-- What is listed for two piles is what is listed for the one and then for the other. -/
theorem Lists.of_append {a b : List WalkEntry} (hl : h.Lists (a ++ b) out) :
    ∃ x y, out = x ++ y ∧ h.Lists a x ∧ h.Lists b y := by
  induction a generalizing out with
  | nil => exact ⟨[], out, rfl, .nil, hl⟩
  | cons e a ih =>
    cases hl with
    | @cons _ _ block rest hblock hrest =>
      obtain ⟨x, y, rfl, hx, hy⟩ := ih hrest
      exact ⟨e :: (block ++ x), y, by simp, .cons hblock hx, hy⟩

@[simp] theorem visit_nil (h : Hierarchy) (left : Nat) (seen : List TeamId) :
    h.visit left seen [] = .ok [] := by
  cases left <;> rfl

/-- A visit succeeds if the team has not been seen and the walk succeeds from the children on. -/
theorem visit_cons_eq_ok_iff {left : Nat} {seen : List TeamId} {e : WalkEntry} :
    h.visit left seen (e :: pending) = .ok out ↔
      ∃ left' rest, left = left' + 1 ∧ e.team.id ∉ seen ∧
        h.visit left' (e.team.id :: seen) (h.below e ++ pending) = .ok rest ∧ out = e :: rest := by
  cases left with
  | zero => simp [visit]
  | succ left =>
    rw [visit, ← below]
    by_cases hseen : e.team.id ∈ seen
    · simp [hseen]
    · simp only [List.contains_iff_mem, hseen, if_false]
      cases hrest : h.visit left (e.team.id :: seen) (h.below e ++ pending) with
      | error failure => simp [hrest]
      | ok rest =>
        constructor
        · intro hok
          cases hok
          exact ⟨left, rest, rfl, not_false, hrest, rfl⟩
        · rintro ⟨left', rest', hleft, -, hrest', rfl⟩
          cases hleft
          rw [hrest] at hrest'
          cases hrest'
          rfl

/-- A walk that succeeds lists what it should. -/
theorem visit_lists {left : Nat} {seen : List TeamId} (hv : h.visit left seen pending = .ok out) :
    h.Lists pending out := by
  induction out generalizing left seen pending with
  | nil =>
    cases pending with
    | nil => exact .nil
    | cons e pending =>
      obtain ⟨_, _, -, -, -, hout⟩ := visit_cons_eq_ok_iff.1 hv
      cases hout
  | cons x out ih =>
    cases pending with
    | nil =>
      rw [visit_nil] at hv
      cases hv
    | cons e pending =>
      obtain ⟨left', rest, -, -, hrest, hout⟩ := visit_cons_eq_ok_iff.1 hv
      cases hout
      obtain ⟨a, b, rfl, ha, hb⟩ := (ih hrest).of_append
      exact .cons ha hb

namespace Lists

/-- The pending entries are listed. -/
theorem subset (hl : h.Lists pending out) : pending ⊆ out := by
  induction hl with
  | nil => exact List.Subset.refl []
  | cons _ _ _ ih =>
    refine List.cons_subset_cons _ ?_
    exact List.Subset.trans ih (List.subset_append_right _ _)

/-- With an entry the children are listed. -/
theorem mem_of_mem_below (hl : h.Lists pending out) {e c : WalkEntry} (he : e ∈ out)
    (hc : c ∈ h.below e) : c ∈ out := by
  induction hl with
  | nil => cases he
  | @cons e' pending block rest hblock _ ihb ihr =>
    refine List.mem_cons_of_mem _ (List.mem_append.2 ?_)
    rcases List.mem_cons.1 he with rfl | he
    · exact .inl (hblock.subset hc)
    · rcases List.mem_append.1 he with he | he
      · exact .inl (ihb he)
      · exact .inr (ihr he)

/-- An entry is listed because it was pending, or as that of a child. -/
theorem source (hl : h.Lists pending out) {x : WalkEntry} (hx : x ∈ out) :
    x ∈ pending ∨ ∃ e ∈ out, x ∈ h.below e := by
  induction hl with
  | nil => cases hx
  | @cons e pending block rest _ _ ihb ihr =>
    rcases List.mem_cons.1 hx with rfl | hx
    · exact .inl (List.mem_cons_self ..)
    · rcases List.mem_append.1 hx with hx | hx
      · rcases ihb hx with hx | ⟨e', he', hx⟩
        · exact .inr ⟨e, List.mem_cons_self .., hx⟩
        · exact .inr ⟨e', by simp [he'], hx⟩
      · rcases ihr hx with hx | ⟨e', he', hx⟩
        · exact .inl (List.mem_cons_of_mem _ hx)
        · exact .inr ⟨e', by simp [he'], hx⟩

/-- What holds of the pending entries, and of the children with each entry, holds of all entries. -/
theorem all (hl : h.Lists pending out) {motive : WalkEntry → Prop}
    (start : ∀ e ∈ pending, motive e) (child : ∀ e, motive e → ∀ c ∈ h.below e, motive c) :
    ∀ e ∈ out, motive e := by
  induction hl with
  | nil =>
    intro e he
    cases he
  | @cons e pending block rest _ _ ihb ihr =>
    have hhead : motive e := start e (List.mem_cons_self ..)
    intro x hx
    rcases List.mem_cons.1 hx with rfl | hx
    · exact hhead
    · rcases List.mem_append.1 hx with hx | hx
      · exact ihb (child e hhead) x hx
      · exact ihr (fun e' he' => start e' (List.mem_cons_of_mem _ he')) x hx

/-- Nothing is listed above the pending entries. -/
theorem le_depth (hl : h.Lists pending out) {depth : Nat} (hd : ∀ e ∈ pending, depth ≤ e.depth) :
    ∀ e ∈ out, depth ≤ e.depth := by
  refine hl.all hd ?_
  intro e he c hc
  obtain ⟨t, -, rfl⟩ := List.mem_map.1 hc
  exact Nat.le_succ_of_le he

/-- If entries are listed, the first of them is the first pending one. -/
theorem head_mem (hl : h.Lists pending out) {e : WalkEntry} (he : e ∈ out.head?) : e ∈ pending := by
  cases hl with
  | nil => cases he
  | cons _ _ =>
    rw [List.head?_cons, Option.mem_some_iff] at he
    exact he ▸ List.mem_cons_self ..

end Lists

/-- A walk begins at depth zero. -/
theorem depth_of_mem_starts (starts : List Team) :
    ∀ e ∈ starts.map fun t => (⟨t, 0⟩ : WalkEntry), e.depth = 0 := by
  intro e he
  obtain ⟨t, -, rfl⟩ := List.mem_map.1 he
  rfl

/-! ### The entries below an entry -/

/-- A list of entries that are taken stops where the next one is not taken. -/
theorem takeWhile_append_of_head {p : WalkEntry → Bool} {a b : List WalkEntry}
    (hb : ∀ e ∈ b.head?, p e = false) : (a ++ b).takeWhile p = a.takeWhile p := by
  induction a with
  | nil =>
    cases b with
    | nil => rfl
    | cons e b =>
      have he : p e = false := hb e rfl
      rw [List.nil_append, List.takeWhile_cons_of_neg (by simp [he]), List.takeWhile_nil]
  | cons e a ih =>
    rw [List.cons_append, List.takeWhile_cons, List.takeWhile_cons, ih]

theorem mem_below {e c : WalkEntry} :
    c ∈ h.below e ↔ c.team ∈ h.childrenOf e.team.id ∧ c.depth = e.depth + 1 := by
  rw [below, List.mem_map]
  constructor
  · rintro ⟨t, ht, rfl⟩
    exact ⟨ht, rfl⟩
  · rintro ⟨ht, hd⟩
    exact ⟨c.team, ht, by rw [← hd]⟩

/-- The teams of these entries are the children. -/
theorem map_team_below (h : Hierarchy) (e : WalkEntry) :
    (h.below e).map WalkEntry.team = h.childrenOf e.team.id := by
  rw [below, List.map_map]
  exact List.map_id _

/-- After an entry come those listed for its children, up to the next entry that is not deeper. -/
theorem Lists.block (hl : h.Lists pending out) {depth : Nat} (hd : ∀ e ∈ pending, e.depth = depth)
    {before after : List WalkEntry} {e : WalkEntry} (hout : out = before ++ e :: after) :
    h.Lists (h.below e) (after.takeWhile fun x => e.depth < x.depth) := by
  induction hl generalizing depth before after e with
  | nil => cases before <;> cases hout
  | @cons e₀ pending block rest hblock hrest ihb ihr =>
    have hbelow : ∀ x ∈ h.below e₀, x.depth = depth + 1 := by
      intro x hx
      rw [(mem_below.1 hx).2, hd e₀ (List.mem_cons_self ..)]
    -- behind the block of the first entry stands nothing, or one of the same depth
    have hstop : ∀ e ∈ block, ∀ x ∈ rest.head?, decide (e.depth < x.depth) = false := by
      intro e he x hx
      have hx' := hd x (List.mem_cons_of_mem _ (hrest.head_mem hx))
      have he' : depth + 1 ≤ e.depth :=
        hblock.le_depth (fun c hc => (hbelow c hc).ge) e he
      rw [decide_eq_false_iff_not]
      omega
    cases before with
    | nil =>
      rw [List.nil_append, List.cons.injEq] at hout
      obtain ⟨rfl, rfl⟩ := hout
      have hdeep : ∀ x ∈ block, decide (e₀.depth < x.depth) = true := by
        intro x hx
        have hx' : depth + 1 ≤ x.depth := hblock.le_depth (fun c hc => (hbelow c hc).ge) x hx
        rw [hd e₀ (List.mem_cons_self ..), decide_eq_true_eq]
        exact hx'
      have hrest₀ : ∀ x ∈ rest.head?, decide (e₀.depth < x.depth) = false := by
        intro x hx
        rw [decide_eq_false_iff_not, hd e₀ (List.mem_cons_self ..),
          hd x (List.mem_cons_of_mem _ (hrest.head_mem hx))]
        exact Nat.lt_irrefl depth
      rw [takeWhile_append_of_head hrest₀, List.takeWhile_eq_self_iff.2 hdeep]
      exact hblock
    | cons e₁ before =>
      rw [List.cons_append, List.cons.injEq] at hout
      have hrest' : ∀ x ∈ pending, x.depth = depth := fun x hx => hd x (List.mem_cons_of_mem _ hx)
      rcases List.append_eq_append_iff.1 hout.2 with ⟨as, rfl, has⟩ | ⟨bs, rfl, hbs⟩
      · exact ihr hrest' has
      · cases bs with
        | nil =>
          have hnil : rest = [] ++ e :: after := hbs.symm
          exact ihr hrest' hnil
        | cons e₂ bs =>
          rw [List.cons_append, List.cons.injEq] at hbs
          obtain ⟨rfl, rfl⟩ := hbs
          rw [takeWhile_append_of_head (hstop e (by simp))]
          exact ihb hbelow rfl

/-! ### Teams that are listed -/

section Keyed

variable (keyed : h.teams.Keyed Team.id)
include keyed

/-- The children of an entry are entries of the children of its team. -/
theorem parent_of_mem_below {e c : WalkEntry} (he : e.team ∈ h.listed) (hc : c ∈ h.below e) :
    Parent h.listed e.team c.team :=
  (mem_childrenOf keyed he).1 (mem_below.1 hc).1

theorem mem_below_of_parent {e : WalkEntry} {t : Team} (ht : Parent h.listed e.team t) :
    ⟨t, e.depth + 1⟩ ∈ h.below e :=
  mem_below.2 ⟨(mem_childrenOf keyed ht.1).2 ht, rfl⟩

namespace Lists

/-- Only teams of the hierarchy are listed. -/
theorem team_mem (hl : h.Lists pending out) (hp : ∀ e ∈ pending, e.team ∈ h.listed) :
    ∀ e ∈ out, e.team ∈ h.listed :=
  hl.all hp fun _ he _ hc => (parent_of_mem_below keyed he hc).2.1

/-- With a team its children are listed. -/
theorem child_mem (hl : h.Lists pending out) {q t : Team} (hq : q ∈ out.map WalkEntry.team)
    (hparent : Parent h.listed q t) : t ∈ out.map WalkEntry.team := by
  obtain ⟨e, he, rfl⟩ := List.mem_map.1 hq
  exact List.mem_map.2 ⟨_, hl.mem_of_mem_below he (mem_below_of_parent keyed hparent), rfl⟩

/-- A team is listed because it was pending, or as a child of a team that is. -/
theorem parent_mem (hl : h.Lists pending out) (hp : ∀ e ∈ pending, e.team ∈ h.listed)
    {x : WalkEntry} (hx : x ∈ out) :
    x ∈ pending ∨ ∃ q ∈ out.map WalkEntry.team, Parent h.listed q x.team := by
  refine (hl.source hx).imp_right ?_
  rintro ⟨e, he, hxe⟩
  exact ⟨e.team, List.mem_map_of_mem he,
    parent_of_mem_below keyed (hl.team_mem keyed hp e he) hxe⟩

/-- The teams that are listed are the pending ones and those below them. -/
theorem mem_teams_iff (hl : h.Lists pending out) (hp : ∀ e ∈ pending, e.team ∈ h.listed)
    {t : Team} : t ∈ out.map WalkEntry.team ↔
      ∃ e ∈ pending, Relation.ReflTransGen (Parent h.listed) e.team t := by
  constructor
  · intro ht
    obtain ⟨x, hx, rfl⟩ := List.mem_map.1 ht
    refine (hl.all (motive := fun x => x.team ∈ h.listed ∧
      ∃ e ∈ pending, Relation.ReflTransGen (Parent h.listed) e.team x.team) ?_ ?_ x hx).2
    · intro e he
      exact ⟨hp e he, e, he, .refl⟩
    · rintro x ⟨hx, e, he, hex⟩ c hc
      have hparent := parent_of_mem_below keyed hx hc
      exact ⟨hparent.2.1, e, he, hex.tail hparent⟩
  · rintro ⟨e, he, het⟩
    induction het with
    | refl => exact List.mem_map_of_mem (hl.subset he)
    | tail _ hparent ih => exact hl.child_mem keyed ih hparent

/-- What is listed for the children of an entry are the teams below its team. -/
theorem mem_teams_below_iff {e : WalkEntry} (he : e.team ∈ h.listed)
    (hl : h.Lists (h.below e) out) {t : Team} :
    t ∈ out.map WalkEntry.team ↔ Ancestor h.listed e.team t := by
  rw [hl.mem_teams_iff keyed fun c hc => (parent_of_mem_below keyed he hc).2.1, Ancestor,
    Relation.TransGen.head'_iff]
  constructor
  · rintro ⟨c, hc, hct⟩
    exact ⟨c.team, parent_of_mem_below keyed he hc, hct⟩
  · rintro ⟨c, hc, hct⟩
    exact ⟨⟨c, e.depth + 1⟩, mem_below_of_parent keyed hc, hct⟩

/-- Siblings are listed in their order, if no team is listed twice: two teams with one parent stand
among the children of that. -/
theorem ordered (hl : h.Lists pending out) (hp : ∀ e ∈ pending, e.team ∈ h.listed)
    (distinct : (out.map WalkEntry.team).Nodup)
    (sorted : pending.Pairwise fun a b =>
      Siblings h.listed a.team b.team → Team.le a.team b.team = true) :
    out.Pairwise fun a b => Siblings h.listed a.team b.team → Team.le a.team b.team = true := by
  induction hl with
  | nil => exact List.Pairwise.nil
  | @cons e pending block rest hblock hrest ihb ihr =>
    have he : e.team ∈ h.listed := hp e (List.mem_cons_self ..)
    have hp' : ∀ x ∈ pending, x.team ∈ h.listed := fun x hx => hp x (List.mem_cons_of_mem _ hx)
    have hbelow : ∀ c ∈ h.below e, c.team ∈ h.listed :=
      fun c hc => (parent_of_mem_below keyed he hc).2.1
    rw [List.map_cons, List.map_append, List.nodup_cons, List.nodup_append'] at distinct
    obtain ⟨hfresh, hdb, hdr, hdisjoint⟩ := distinct
    rw [List.mem_append, not_or] at hfresh
    obtain ⟨hsorted, hsorted'⟩ := List.pairwise_cons.1 sorted
    -- the teams below the first entry: each has its parent among them or in that entry, and with
    -- a parent they hold all its children
    have hparents : ∀ x ∈ block, ∃ q,
        (q = e.team ∨ q ∈ block.map WalkEntry.team) ∧ Parent h.listed q x.team := by
      intro x hx
      rcases hblock.parent_mem keyed hbelow hx with hxe | ⟨q, hq, hqx⟩
      · exact ⟨e.team, .inl rfl, parent_of_mem_below keyed he hxe⟩
      · exact ⟨q, .inr hq, hqx⟩
    have hchildren : ∀ q t, (q = e.team ∨ q ∈ block.map WalkEntry.team) → Parent h.listed q t →
        t ∈ block.map WalkEntry.team := by
      rintro q t (rfl | hq) hqt
      · exact List.mem_map.2 ⟨_, hblock.subset (mem_below_of_parent keyed hqt), rfl⟩
      · exact hblock.child_mem keyed hq hqt
    refine List.pairwise_cons.2 ⟨?_, List.pairwise_append.2 ⟨?_, ihr hp' hdr hsorted', ?_⟩⟩
    · intro x hx hsiblings
      rcases List.mem_append.1 hx with hx | hx
      · obtain ⟨q, hq, hqx⟩ := hparents x hx
        exact absurd (hchildren q e.team hq ((hsiblings q).2 hqx)) hfresh.1
      · rcases hrest.parent_mem keyed hp' hx with hx | ⟨q, hq, hqx⟩
        · exact hsorted x hx hsiblings
        · exact absurd (hrest.child_mem keyed hq ((hsiblings q).2 hqx)) hfresh.2
    · refine ihb hbelow hdb ?_
      rw [Hierarchy.below, List.pairwise_map]
      refine (sortBy_pairwise Team.le_trans Team.le_total _).imp ?_
      intro a b hle _
      exact hle
    · intro x hx y hy hsiblings
      obtain ⟨q, hq, hqx⟩ := hparents x hx
      have hy' := hchildren q y.team hq ((hsiblings q).1 hqx)
      exact absurd (List.mem_map_of_mem hy) (hdisjoint hy')

end Lists

/-! ### Walks that succeed -/

end Keyed

/-- None of the teams is below one of them. -/
def Apart (h : Hierarchy) (starts : List Team) : Prop :=
  ∀ a ∈ starts, ∀ t, Relation.ReflTransGen (Parent h.listed) a t →
    ∀ s ∈ starts, ¬ Parent h.listed t s

/-- The invariant of a walk from some teams: no pending team has been seen, and every other team on
the way was the child of one that has been seen. -/
structure Frontier (h : Hierarchy) (starts seen pending : List Team) : Prop where
  distinct : (seen ++ pending).Nodup
  reached : ∀ t ∈ seen ++ pending, t ∈ h.listed ∧
    ∃ s ∈ starts, Relation.ReflTransGen (Parent h.listed) s t
  origin : ∀ t ∈ seen ++ pending, t ∈ starts ∨ ∃ p ∈ seen, Parent h.listed p t

namespace Frontier

variable {starts seen pending : List Team} {t : Team}

theorem start (hs : ∀ s ∈ starts, s ∈ h.listed) (distinct : starts.Nodup) :
    h.Frontier starts [] starts where
  distinct := distinct
  reached s hmem := ⟨hs s hmem, s, hmem, .refl⟩
  origin _ hmem := .inl hmem

/-- A visit puts the children of the team in its place.  None of them is on the way yet: a team that
is was a child of another, or it is a start, which is below no start. -/
theorem visit (keyed : h.teams.Keyed Team.id) (apart : h.Apart starts)
    (hf : h.Frontier starts seen (t :: pending)) :
    h.Frontier starts (t :: seen) (h.childrenOf t.id ++ pending) := by
  obtain ⟨ht, s, hs, hst⟩ := hf.reached t (by simp)
  have hchild : ∀ c ∈ h.childrenOf t.id, Parent h.listed t c :=
    fun c hc => (mem_childrenOf keyed ht).1 hc
  have hperm : (t :: seen ++ (h.childrenOf t.id ++ pending)).Perm
      (h.childrenOf t.id ++ (seen ++ t :: pending)) :=
    (List.perm_append_comm_assoc ..).trans (List.perm_middle.symm.append_left _)
  have hfresh : ∀ c ∈ h.childrenOf t.id, c ∉ seen ++ t :: pending := by
    intro c hc hmem
    rcases hf.origin c hmem with hstart | ⟨p, hp, hpc⟩
    · exact apart s hs t hst c hstart (hchild c hc)
    · rw [hpc.unique (nodup_ids keyed) (hchild c hc)] at hp
      exact (List.disjoint_of_nodup_append hf.distinct) hp (List.mem_cons_self ..)
  refine ⟨?_, ?_, ?_⟩
  · rw [hperm.nodup_iff, List.nodup_append']
    exact ⟨nodup_childrenOf keyed t.id, hf.distinct, hfresh⟩
  · intro x hx
    rcases List.mem_append.1 (hperm.mem_iff.1 hx) with hx | hx
    · exact ⟨(hchild x hx).2.1, s, hs, hst.tail (hchild x hx)⟩
    · exact hf.reached x hx
  · intro x hx
    rcases List.mem_append.1 (hperm.mem_iff.1 hx) with hx | hx
    · exact .inr ⟨t, List.mem_cons_self .., hchild x hx⟩
    · refine (hf.origin x hx).imp_right ?_
      rintro ⟨p, hp, hpx⟩
      exact ⟨p, List.mem_cons_of_mem _ hp, hpx⟩

/-- There are no more teams on the way than in the hierarchy. -/
theorem length_le (hf : h.Frontier starts seen pending) :
    seen.length + pending.length ≤ h.size := by
  have hsub : seen ++ pending ⊆ h.listed := fun t ht => (hf.reached t ht).1
  have hle := (List.subperm_of_subset hf.distinct hsub).length_le
  rw [List.length_append] at hle
  rwa [size, ← List.length_map (f := Prod.snd)]

end Frontier

/-- A walk that meets no team twice succeeds. -/
theorem visit_ok (keyed : h.teams.Keyed Team.id) {starts : List Team} (apart : h.Apart starts)
    {left : Nat} {seen : List Team}
    (hf : h.Frontier starts seen (pending.map WalkEntry.team))
    (hleft : h.size ≤ left + seen.length) :
    ∃ out, h.visit left (seen.map Team.id) pending = .ok out := by
  induction left generalizing seen pending with
  | zero =>
    cases pending with
    | nil => exact ⟨[], rfl⟩
    | cons e pending =>
      -- every team has been seen, so none can be pending
      have hle := hf.length_le
      simp only [List.map_cons, List.length_cons] at hle
      omega
  | succ left ih =>
    cases pending with
    | nil => exact ⟨[], rfl⟩
    | cons e pending =>
      have hseen : e.team.id ∉ seen.map Team.id := by
        intro hid
        obtain ⟨s, hs, hsid⟩ := List.mem_map.1 hid
        have hs' := (hf.reached s (List.mem_append_left _ hs)).1
        have he' := (hf.reached e.team (by simp)).1
        rw [List.inj_on_of_nodup_map (nodup_ids keyed) hs' he' hsid] at hs
        exact (List.disjoint_of_nodup_append hf.distinct) hs (by simp)
      have hf' : h.Frontier starts (e.team :: seen)
          ((h.below e ++ pending).map WalkEntry.team) := by
        rw [List.map_append, map_team_below]
        exact hf.visit keyed apart
      obtain ⟨out, hout⟩ := ih hf' (by rw [List.length_cons]; omega)
      exact ⟨e :: out, visit_cons_eq_ok_iff.2 ⟨left, out, rfl, hseen, hout, rfl⟩⟩

/-- A walk from teams of which none is below another, or below itself, succeeds. -/
theorem walkFrom_ok (keyed : h.teams.Keyed Team.id) {starts : List Team}
    (hs : ∀ s ∈ starts, s ∈ h.listed) (distinct : starts.Nodup) (apart : h.Apart starts) :
    ∃ out, h.walkFrom starts = .ok out := by
  have hmap : (starts.map fun t => (⟨t, 0⟩ : WalkEntry)).map WalkEntry.team = starts := by
    rw [List.map_map]
    exact List.map_id _
  have hf : h.Frontier starts []
      ((starts.map fun t => (⟨t, 0⟩ : WalkEntry)).map WalkEntry.team) := by
    rw [hmap]
    exact Frontier.start hs distinct
  exact visit_ok keyed apart hf (Nat.le_refl h.size)

/-- A walk that succeeds lists no team twice. -/
theorem visit_distinct {left : Nat} {seen : List TeamId}
    (hv : h.visit left seen pending = .ok out) :
    (out.map fun e => e.team.id).Nodup ∧ ∀ e ∈ out, e.team.id ∉ seen := by
  induction out generalizing left seen pending with
  | nil => exact ⟨List.nodup_nil, by simp⟩
  | cons x out ih =>
    cases pending with
    | nil =>
      rw [visit_nil] at hv
      cases hv
    | cons e pending =>
      obtain ⟨left', rest, -, hseen, hrest, hout⟩ := visit_cons_eq_ok_iff.1 hv
      cases hout
      obtain ⟨hdistinct, hfresh⟩ := ih hrest
      refine ⟨List.nodup_cons.2 ⟨?_, hdistinct⟩, ?_⟩
      · intro hmem
        obtain ⟨y, hy, hid⟩ := List.mem_map.1 hmem
        exact hfresh y hy (hid ▸ List.mem_cons_self ..)
      · intro y hy
        rcases List.mem_cons.1 hy with rfl | hy
        · exact hseen
        · exact fun hmem => hfresh y hy (List.mem_cons_of_mem _ hmem)

/-- A walk fails only for a cycle. -/
theorem visit_error {left : Nat} {seen : List TeamId} {e : Failure}
    (hv : h.visit left seen pending = .error e) : ∃ id, e = .parentCycle id := by
  induction left generalizing seen pending with
  | zero =>
    cases pending with
    | nil => cases hv
    | cons e pending =>
      cases hv
      exact ⟨_, rfl⟩
  | succ left ih =>
    cases pending with
    | nil => cases hv
    | cons e pending =>
      unfold visit at hv
      simp only at hv
      split at hv
      · cases hv
        exact ⟨_, rfl⟩
      · split at hv
        · cases hv
        · rename_i hrest
          cases hv
          exact ih hrest

theorem mem_keys_of_listed (keyed : h.teams.Keyed Team.id) {t : Team} (ht : t ∈ h.listed) :
    t.id ∈ h.teams.keys := by
  rw [← keyed.map_values]
  exact List.mem_map_of_mem ht

/-- The bound makes no difference to a walk: when it is used up, all teams have been seen, and the next
one is refused with or without it. -/
theorem visit_succ (keyed : h.teams.Keyed Team.id) {left : Nat} {seen : List TeamId}
    (distinct : seen.Nodup) (hseen : seen ⊆ h.teams.keys)
    (hp : ∀ e ∈ pending, e.team ∈ h.listed) (hleft : h.size ≤ left + seen.length) :
    h.visit (left + 1) seen pending = h.visit left seen pending := by
  induction left generalizing seen pending with
  | zero =>
    cases pending with
    | nil => rfl
    | cons e pending =>
      have hid : e.team.id ∈ h.teams.keys :=
        mem_keys_of_listed keyed (hp e (List.mem_cons_self ..))
      have hlength : h.teams.keys.length ≤ seen.length := by
        rw [Table.keys, List.length_map]
        exact Nat.zero_add seen.length ▸ hleft
      have hperm : seen.Perm h.teams.keys :=
        (List.subperm_of_subset distinct hseen).perm_of_length_le hlength
      have hmem : e.team.id ∈ seen := hperm.mem_iff.2 hid
      simp [visit, hmem]
  | succ left ih =>
    cases pending with
    | nil => rfl
    | cons e pending =>
      by_cases hmem : e.team.id ∈ seen
      · simp [visit, hmem]
      · have he : e.team ∈ h.listed := hp e (List.mem_cons_self ..)
        have hid : e.team.id ∈ h.teams.keys := mem_keys_of_listed keyed he
        have hp' : ∀ x ∈ h.below e ++ pending, x.team ∈ h.listed := by
          intro x hx
          rcases List.mem_append.1 hx with hx | hx
          · exact (parent_of_mem_below keyed he hx).2.1
          · exact hp x (List.mem_cons_of_mem _ hx)
        have hrest : h.visit (left + 1) (e.team.id :: seen) (h.below e ++ pending) =
            h.visit left (e.team.id :: seen) (h.below e ++ pending) := by
          refine ih (List.nodup_cons.2 ⟨hmem, distinct⟩) (List.cons_subset.2 ⟨hid, hseen⟩) hp' ?_
          rw [List.length_cons]
          omega
        rw [visit, visit, ← below]
        simp only [hrest]

/-! ### Walks of all teams -/

section All

variable {entries : List WalkEntry}

/-- A walk of all teams fails only for a cycle. -/
theorem walk_none_error {e : Failure} (hw : h.walk none = .error e) :
    ∃ id, e = .parentCycle id := by
  unfold walk at hw
  simp only at hw
  split at hw
  · split at hw
    · cases hw
      exact ⟨_, rfl⟩
    · cases hw
  · rename_i hfrom
    cases hw
    exact visit_error hfrom

theorem walk_none_eq_ok_iff :
    h.walk none = .ok entries ↔ h.walkFrom h.roots = .ok entries ∧ h.missed? entries = none := by
  rw [walk]
  cases h.walkFrom h.roots with
  | error e => simp
  | ok out =>
    simp only [Except.ok.injEq]
    cases hmissed : h.missed? out with
    | none =>
      constructor
      · intro hw
        cases hw
        exact ⟨rfl, hmissed⟩
      · rintro ⟨rfl, -⟩
        rfl
    | some id =>
      constructor
      · intro hw
        cases hw
      · rintro ⟨rfl, hnone⟩
        rw [hmissed] at hnone
        cases hnone

variable (keyed : h.teams.Keyed Team.id)
include keyed

/-- A walk has missed no team if every team is listed. -/
theorem missed?_eq_none_iff (hteams : ∀ e ∈ entries, e.team ∈ h.listed) :
    h.missed? entries = none ↔ ∀ t ∈ h.listed, t ∈ entries.map WalkEntry.team := by
  rw [missed?, List.find?_eq_none, ← keyed.map_values]
  simp only [List.mem_map, forall_exists_index, and_imp, forall_apply_eq_imp_iff₂,
    Bool.not_eq_true, Bool.not_eq_false', List.any_eq_true, beq_iff_eq]
  refine forall₂_congr fun t ht => exists_congr fun e => and_congr_right fun he => ?_
  constructor
  · intro hid
    exact List.inj_on_of_nodup_map (nodup_ids keyed) (hteams e he) ht hid
  · intro heq
    rw [heq]

/-- What a walk from the roots holds of its entries. -/
theorem walkFrom_roots_entries (hw : h.walkFrom h.roots = .ok entries) :
    ∀ e ∈ entries, e.team ∈ h.listed ∧ ¬ Ancestor h.listed e.team e.team ∧
      {a | Ancestor h.listed a e.team}.encard = e.depth := by
  refine (visit_lists hw).all ?_ ?_
  · intro e he
    obtain ⟨t, ht, rfl⟩ := List.mem_map.1 he
    obtain ⟨hlisted, htop⟩ := (mem_roots keyed).1 ht
    have hnone := encard_ancestors_top htop
    refine ⟨hlisted, ?_, hnone⟩
    intro hself
    rw [Set.encard_eq_zero, Set.eq_empty_iff_forall_notMem] at hnone
    exact hnone t hself
  · rintro e ⟨hlisted, hself, hdepth⟩ c hc
    have hparent := parent_of_mem_below keyed hlisted hc
    refine ⟨hparent.2.1, not_ancestor_self_child (nodup_ids keyed) hparent hself, ?_⟩
    rw [encard_ancestors_child (nodup_ids keyed) hparent hself, hdepth, (mem_below.1 hc).2]
    rfl

/-- A walk of all teams that succeeds is the walk of the teams. -/
theorem walk_isWalk (hw : h.walk none = .ok entries) : IsWalk h.listed entries := by
  obtain ⟨hfrom, hmissed⟩ := walk_none_eq_ok_iff.1 hw
  have hentries := walkFrom_roots_entries keyed hfrom
  have hlists : h.Lists (h.roots.map fun t => ⟨t, 0⟩) entries := visit_lists hfrom
  have hteams : ∀ e ∈ entries, e.team ∈ h.listed := fun e he => (hentries e he).1
  have hroots : ∀ e ∈ h.roots.map fun t => (⟨t, 0⟩ : WalkEntry), e.team ∈ h.listed := by
    intro e he
    exact hteams e (hlists.subset he)
  have hdistinct : (entries.map WalkEntry.team).Nodup := by
    have hids := (visit_distinct hfrom).1
    refine List.Nodup.of_map Team.id ?_
    rwa [List.map_map]
  constructor
  case perm =>
    refine (List.perm_ext_iff_of_nodup hdistinct keyed.nodup_values).2 fun t => ⟨?_, ?_⟩
    · intro ht
      obtain ⟨e, he, rfl⟩ := List.mem_map.1 ht
      exact hteams e he
    · exact (missed?_eq_none_iff keyed hteams).1 hmissed t
  case depth => exact fun e he => (hentries e he).2.2
  case block =>
    intro before e after hout t
    have hblock := hlists.block (depth_of_mem_starts h.roots) hout
    exact hblock.mem_teams_below_iff keyed (hteams e (by simp [hout]))
  case ordered =>
    refine hlists.ordered keyed hroots hdistinct ?_
    rw [List.pairwise_map]
    refine (sortBy_pairwise Team.le_trans Team.le_total _).imp ?_
    intro a b hle _
    exact hle

/-- A walk from the roots succeeds, whatever it misses: no root is below a team. -/
theorem walkFrom_roots_ok : ∃ entries, h.walkFrom h.roots = .ok entries := by
  have hroots : ∀ t ∈ h.roots, t ∈ h.listed := fun t ht => ((mem_roots keyed).1 ht).1
  have apart : h.Apart h.roots := fun _ _ t _ s hs hparent =>
    ((mem_roots keyed).1 hs).2 t hparent
  exact walkFrom_ok keyed hroots (nodup_roots keyed) apart

/-- A walk from the roots lists the teams that are not stranded. -/
theorem mem_walkFrom_roots (hw : h.walkFrom h.roots = .ok entries) {t : Team} :
    t ∈ entries.map WalkEntry.team ↔ t ∈ h.listed ∧ ¬ Stranded h.listed t := by
  have hlists : h.Lists (h.roots.map fun t => ⟨t, 0⟩) entries := visit_lists hw
  constructor
  · intro ht
    obtain ⟨e, he, rfl⟩ := List.mem_map.1 ht
    refine hlists.all (motive := fun e => e.team ∈ h.listed ∧ ¬ Stranded h.listed e.team) ?_ ?_ e he
    · intro e he
      obtain ⟨t, ht, rfl⟩ := List.mem_map.1 he
      obtain ⟨hlisted, htop⟩ := (mem_roots keyed).1 ht
      refine ⟨hlisted, fun hstranded => ?_⟩
      obtain ⟨p, hp, -⟩ := hstranded.parent
      exact htop p hp
    · rintro e ⟨hlisted, hfree⟩ c hc
      have hparent := parent_of_mem_below keyed hlisted hc
      exact ⟨hparent.2.1, fun hstranded => hfree (hstranded.of_child (nodup_ids keyed) hparent)⟩
  · rintro ⟨ht, hfree⟩
    -- the walk has started from all teams without a parent, and went on to the children of each
    refine induction_of_not_stranded ?_ ?_ t ht hfree
    · intro t ht htop
      refine List.mem_map.2 ⟨⟨t, 0⟩, hlists.subset ?_, rfl⟩
      exact List.mem_map_of_mem ((mem_roots keyed).2 ⟨ht, htop⟩)
    · intro p t hparent hp
      exact hlists.child_mem keyed hp hparent

/-- A walk of all teams succeeds exactly if the teams are acyclic. -/
theorem exists_walk_iff : (∃ entries, h.walk none = .ok entries) ↔ Acyclic h.listed := by
  constructor
  · rintro ⟨entries, hw⟩ t hself
    obtain ⟨hfrom, -⟩ := walk_none_eq_ok_iff.1 hw
    have ht : t ∈ entries.map WalkEntry.team :=
      (walk_isWalk keyed hw).perm.mem_iff.2 hself.stranded.mem
    exact ((mem_walkFrom_roots keyed hfrom).1 ht).2 hself.stranded
  · intro hacyclic
    obtain ⟨entries, hfrom⟩ := walkFrom_roots_ok keyed
    have hteams : ∀ e ∈ entries, e.team ∈ h.listed := fun e he =>
      (walkFrom_roots_entries keyed hfrom e he).1
    refine ⟨entries, walk_none_eq_ok_iff.2 ⟨hfrom, (missed?_eq_none_iff keyed hteams).2 ?_⟩⟩
    intro t ht
    refine (mem_walkFrom_roots keyed hfrom).2 ⟨ht, ?_⟩
    rintro ⟨c, hc, -⟩
    exact hacyclic c hc

theorem walk_some_eq_walkFrom {root : Team} (hroot : root ∈ h.listed) :
    h.walk (some root.id) = h.walkFrom [root] := by
  have hget : h.get? root.id = some root := keyed.get?_of_mem hroot
  rw [walk, hget]

/-- A walk from one team succeeds if the team is not among its own ancestors: no way down from it comes
back to it, and all other teams on the way are met as the children of one parent. -/
theorem walkFrom_singleton_ok {root : Team} (hroot : root ∈ h.listed)
    (hself : ¬ Ancestor h.listed root root) : ∃ entries, h.walkFrom [root] = .ok entries := by
  have hstart : ∀ s ∈ [root], s ∈ h.listed := fun s hs => List.mem_singleton.1 hs ▸ hroot
  have apart : h.Apart [root] := by
    -- a team below the root that is the parent of the root would close a cycle
    intro a ha t hat s hs hts
    rw [List.mem_singleton.1 ha] at hat
    rw [List.mem_singleton.1 hs] at hts
    exact hself (Relation.TransGen.tail' hat hts)
  exact walkFrom_ok keyed hstart (List.nodup_singleton root) apart

/-- A walk from one team of acyclic teams succeeds.  It lists the team and all that are below it. -/
theorem exists_walk_some (hacyclic : Acyclic h.listed) {root : Team} (hroot : root ∈ h.listed) :
    ∃ entries, h.walk (some root.id) = .ok entries ∧ (entries.map fun e => e.team.id).Nodup ∧
      ∀ t, t ∈ entries.map WalkEntry.team ↔
        Relation.ReflTransGen (Parent h.listed) root t := by
  obtain ⟨entries, hfrom⟩ := walkFrom_singleton_ok keyed hroot (hacyclic root)
  refine ⟨entries, ?_, (visit_distinct hfrom).1, fun t => ?_⟩
  · rw [walk_some_eq_walkFrom keyed hroot, hfrom]
  · have hlists : h.Lists [⟨root, 0⟩] entries := visit_lists hfrom
    rw [hlists.mem_teams_iff keyed fun e he => List.mem_singleton.1 he ▸ hroot]
    simp only [List.mem_singleton, exists_eq_left]

end All

/-! ### Walks of a list -/

section OfList

variable {teams : List Team} (distinct : (teams.map Team.id).Nodup)
include distinct

theorem exists_walk_ofList_iff :
    (∃ entries, (ofList teams).walk none = .ok entries) ↔ Acyclic teams := by
  rw [exists_walk_iff (keyed_ofList teams)]
  exact acyclic_congr fun t => mem_listed_ofList distinct

theorem isWalk_ofList {entries : List WalkEntry} (hw : (ofList teams).walk none = .ok entries) :
    IsWalk teams entries := by
  refine (walk_isWalk (keyed_ofList teams) hw).of_perm ?_
  refine (List.perm_ext_iff_of_nodup (keyed_ofList teams).nodup_values
    (List.Nodup.of_map Team.id distinct)).2 fun t => ?_
  exact mem_listed_ofList distinct

theorem exists_walk_ofList_some (hacyclic : Acyclic teams) {root : Team} (hroot : root ∈ teams) :
    ∃ entries, (ofList teams).walk (some root.id) = .ok entries ∧
      (entries.map fun e => e.team.id).Nodup ∧
      ∀ t, t ∈ entries.map WalkEntry.team ↔ Relation.ReflTransGen (Parent teams) root t := by
  have hlisted : ∀ t, t ∈ (ofList teams).listed ↔ t ∈ teams := fun t => mem_listed_ofList distinct
  rw [← parent_congr hlisted]
  exact exists_walk_some (keyed_ofList teams) ((acyclic_congr hlisted).2 hacyclic)
    ((hlisted root).2 hroot)

end OfList

/-- **A walk of all teams of a list with distinct identifiers** succeeds exactly if the teams are
acyclic; it is then the walk of the teams, and otherwise it is refused as a cycle.  In whatever order
the teams are listed, the outcome is the same. -/
theorem walk_ofList {teams : List Team} (distinct : (teams.map Team.id).Nodup) :
    ((∃ entries, (ofList teams).walk none = .ok entries) ↔ Acyclic teams) ∧
      (∀ entries, (ofList teams).walk none = .ok entries → IsWalk teams entries) ∧
      (∀ e, (ofList teams).walk none = .error e → e.report.code = .hierarchyCycle) ∧
      (∀ teams', teams'.Perm teams → (ofList teams').walk none = (ofList teams).walk none) := by
  refine ⟨exists_walk_ofList_iff distinct, fun _ hw => isWalk_ofList distinct hw, ?_, ?_⟩
  · intro e hw
    obtain ⟨id, rfl⟩ := walk_none_error hw
    rfl
  · intro teams' perm
    rw [ofList_of_perm distinct perm]

/-- A tree of two levels, and a team whose parent is not listed. -/
theorem walk_ofList_dangling_parent :
    let teams : List Team := [⟨4, "Search", .team, some 1⟩, ⟨2, "Billing", .team, some 1⟩,
      ⟨1, "Products", .unit, none⟩, ⟨3, "Archive", .unit, some 9⟩]
    let entries : List WalkEntry := [⟨⟨3, "Archive", .unit, some 9⟩, 0⟩,
      ⟨⟨1, "Products", .unit, none⟩, 0⟩, ⟨⟨2, "Billing", .team, some 1⟩, 1⟩,
      ⟨⟨4, "Search", .team, some 1⟩, 1⟩]
    (teams.map Team.id).Nodup ∧ (ofList teams).walk none = .ok entries ∧
      IsWalk teams entries ∧ Acyclic teams := by
  intro teams entries
  have distinct : (teams.map Team.id).Nodup := by decide
  have hw : (ofList teams).walk none = .ok entries := by rfl
  obtain ⟨hiff, hwalk, -, -⟩ := walk_ofList distinct
  exact ⟨distinct, hw, hwalk entries hw, hiff.1 ⟨entries, hw⟩⟩

end Hierarchy

end Objectives
