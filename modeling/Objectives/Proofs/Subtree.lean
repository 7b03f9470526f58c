/- # The walk from one team

A walk from one team and the walk of all teams are the same loop with other teams to begin with.  What
is listed for a pile of entries depends on the pile alone, and to count the depths from elsewhere
changes nothing but the depths.  So a walk from a team lists what the walk of all teams lists from that
team on, until the depth comes back to where it was.

Main definitions:

* `Teams.StepsUp` — the number of steps that lead from a team up to another;
* `WalkEntry.lower`, `WalkEntry.raise` — an entry with its depth counted from elsewhere.

Main results:

* `Teams.stepsUp_unique` — above a team that is on no cycle the number of steps is unique;
* `Hierarchy.Lists.unique`, `Hierarchy.Lists.raise` — what is listed for pending entries is determined,
  and moves with their depths;
* `Hierarchy.walk_some_of_block` — the walk from a team is a block of the walk of all teams;
* `Hierarchy.walk_ofList_some` — **the walk from a team of a list**.
-/

import Objectives.Proofs.Cycles

set_option relaxedAutoImplicit false
set_option autoImplicit false

namespace Objectives

/-! ### Steps -/

namespace Teams

/-- A number of steps lead from a team up to the root. -/
inductive StepsUp (teams : List Team) (root : Team) : Nat → Team → Prop
  | none : StepsUp teams root 0 root
  | more {n : Nat} {p t : Team} : StepsUp teams root n p → Parent teams p t →
      StepsUp teams root (n + 1) t

variable {teams : List Team} {root t : Team}

theorem StepsUp.reflTransGen {n : Nat} (h : StepsUp teams root n t) :
    Relation.ReflTransGen (Parent teams) root t := by
  induction h with
  | none => exact .refl
  | more _ hparent ih => exact ih.tail hparent

/-- If the root is not among its own ancestors, the way up to it has one length. -/
theorem stepsUp_unique (distinct : (teams.map Team.id).Nodup) (hself : ¬ Ancestor teams root root)
    {m n : Nat} (hm : StepsUp teams root m t) (hn : StepsUp teams root n t) : m = n := by
  induction hm generalizing n with
  | none =>
    cases hn with
    | none => rfl
    | more hn hparent => exact absurd (Relation.TransGen.tail' hn.reflTransGen hparent) hself
  | more hm hparent ih =>
    cases hn with
    | none => exact absurd (Relation.TransGen.tail' hm.reflTransGen hparent) hself
    | more hn hparent' =>
      rw [ih (hparent'.unique distinct hparent ▸ hn)]

theorem stepsUp_congr {teams' : List Team} (h : ∀ t, t ∈ teams' ↔ t ∈ teams) :
    StepsUp teams' = StepsUp teams := by
  have himp : ∀ {a b : List Team} {n : Nat} {root t : Team}, (∀ t, t ∈ a ↔ t ∈ b) →
      StepsUp a root n t → StepsUp b root n t := by
    intro a b n root t hab hsteps
    induction hsteps with
    | none => exact .none
    | more _ hparent ih => exact .more ih (parent_congr hab ▸ hparent)
  funext root n t
  exact propext ⟨himp h, himp fun t => (h t).symm⟩

end Teams

/-! ### Depths counted from elsewhere -/

namespace WalkEntry

/-- The entry with a number added to its depth. -/
def raise (depth : Nat) (e : WalkEntry) : WalkEntry := ⟨e.team, e.depth + depth⟩

/-- The entry with a number subtracted from its depth. -/
def lower (depth : Nat) (e : WalkEntry) : WalkEntry := ⟨e.team, e.depth - depth⟩

@[simp] theorem lower_raise (depth : Nat) (e : WalkEntry) : (e.raise depth).lower depth = e := by
  rw [raise, lower, Nat.add_sub_cancel]

end WalkEntry

namespace Hierarchy

open Teams

variable {h : Hierarchy} {pending out entries : List WalkEntry}

/-- What is listed for pending entries is determined by them. -/
theorem Lists.unique {out' : List WalkEntry} (hl : h.Lists pending out)
    (hl' : h.Lists pending out') : out = out' := by
  induction hl generalizing out' with
  | nil =>
    cases hl'
    rfl
  | cons _ _ ihb ihr =>
    cases hl' with
    | cons hblock hrest => rw [ihb hblock, ihr hrest]

theorem below_raise (h : Hierarchy) (depth : Nat) (e : WalkEntry) :
    h.below (e.raise depth) = (h.below e).map (WalkEntry.raise depth) := by
  rw [below, below, List.map_map]
  refine List.map_congr_left fun t _ => ?_
  simp only [WalkEntry.raise, Function.comp_apply, Nat.add_right_comm]

/-- What is listed for entries moves with their depths. -/
theorem Lists.raise (hl : h.Lists pending out) (depth : Nat) :
    h.Lists (pending.map (WalkEntry.raise depth)) (out.map (WalkEntry.raise depth)) := by
  induction hl with
  | nil => exact .nil
  | cons _ _ ihb ihr =>
    rw [← below_raise] at ihb
    rw [List.map_cons, List.map_cons, List.map_append]
    exact .cons ihb ihr

/-! ### A walk from one team -/

section Keyed

variable (keyed : h.teams.Keyed Team.id) {root : Team} (hroot : root ∈ h.listed)
include keyed hroot

/-- A walk from a team succeeds exactly if the team is not among its own ancestors. -/
theorem exists_walk_some_iff :
    (∃ entries, h.walk (some root.id) = .ok entries) ↔ ¬ Ancestor h.listed root root := by
  constructor
  · rintro ⟨entries, hw⟩ hself
    rw [(walk_some_eq_error_iff keyed hroot).2 ⟨hself, rfl⟩] at hw
    cases hw
  · intro hself
    rw [walk_some_eq_walkFrom keyed hroot]
    exact walkFrom_singleton_ok keyed hroot hself

/-- The depths of a walk from a team count the steps up to it. -/
theorem stepsUp_of_mem_walk (hw : h.walk (some root.id) = .ok entries) :
    ∀ e ∈ entries, StepsUp h.listed root e.depth e.team := by
  rw [walk_some_eq_walkFrom keyed hroot] at hw
  have hlists : h.Lists [⟨root, 0⟩] entries := visit_lists hw
  have hall : ∀ e ∈ entries, e.team ∈ h.listed ∧ StepsUp h.listed root e.depth e.team := by
    refine hlists.all ?_ ?_
    · intro e he
      rw [List.mem_singleton.1 he]
      exact ⟨hroot, .none⟩
    · rintro e ⟨he, hsteps⟩ c hc
      have hparent := parent_of_mem_below keyed he hc
      rw [(mem_below.1 hc).2]
      exact ⟨hparent.2.1, .more hsteps hparent⟩
  exact fun e he => (hall e he).2

/-- A walk from a team lists the team and those below it. -/
theorem mem_walk_some_iff (hw : h.walk (some root.id) = .ok entries) {t : Team} :
    t ∈ entries.map WalkEntry.team ↔ t = root ∨ Ancestor h.listed root t := by
  rw [walk_some_eq_walkFrom keyed hroot] at hw
  have hlists : h.Lists [⟨root, 0⟩] entries := visit_lists hw
  rw [hlists.mem_teams_iff keyed fun e he => List.mem_singleton.1 he ▸ hroot]
  simp only [List.mem_singleton, exists_eq_left]
  exact Relation.reflTransGen_iff_eq_or_transGen

end Keyed

/-- **The walk from a team is a block of the walk of all teams**: it begins at the team, ends where
the depth comes back to that of the team, and counts the depths from there. -/
theorem walk_some_of_block (keyed : h.teams.Keyed Team.id) {before after : List WalkEntry}
    {e : WalkEntry} (hw : h.walk none = .ok (before ++ e :: after)) :
    h.walk (some e.team.id) =
      .ok ((e :: after.takeWhile fun x => e.depth < x.depth).map (WalkEntry.lower e.depth)) := by
  have hfrom := (walk_none_eq_ok_iff.1 hw).1
  have he : e.team ∈ h.listed := (walkFrom_roots_entries keyed hfrom e (by simp)).1
  have hacyclic : Acyclic h.listed := (exists_walk_iff keyed).1 ⟨_, hw⟩
  -- both walks list what is listed for the entry of the team, one of them from depth zero
  have hblock : h.Lists [e] (e :: ((after.takeWhile fun x => e.depth < x.depth) ++ [])) :=
    .cons ((visit_lists hfrom).block (depth_of_mem_starts h.roots) rfl) .nil
  obtain ⟨entries, hsome⟩ := (exists_walk_some_iff keyed he).2 (hacyclic e.team)
  have hraised : h.Lists [e] (entries.map (WalkEntry.raise e.depth)) := by
    have hlists : h.Lists [⟨e.team, 0⟩] entries :=
      visit_lists (walk_some_eq_walkFrom keyed he ▸ hsome)
    have hmoved := hlists.raise e.depth
    rwa [List.map_singleton, WalkEntry.raise, Nat.zero_add] at hmoved
  have heq : entries = (e :: after.takeWhile fun x => e.depth < x.depth).map
      (WalkEntry.lower e.depth) := by
    rw [List.append_nil] at hblock
    rw [← hraised.unique hblock, List.map_map]
    simp [Function.comp_def]
  rw [hsome, heq]

/-! ### Walks of a list -/

/-- **The walk from a team of a list with distinct identifiers**, whatever cycles there are.  It
succeeds exactly if the team is not among its own ancestors; it then lists the team and those below it,
each once, with the number of steps up to the team.  Where the walk of all teams succeeds, the walk from
the team is the block of that walk which begins at the team and ends before the next entry that is not
deeper, with the depths counted from the team. -/
theorem walk_ofList_some {teams : List Team} (distinct : (teams.map Team.id).Nodup) {root : Team}
    (hroot : root ∈ teams) :
    ((∃ entries, (ofList teams).walk (some root.id) = .ok entries) ↔ ¬ Ancestor teams root root) ∧
      (∀ entries, (ofList teams).walk (some root.id) = .ok entries →
        (entries.map WalkEntry.team).Nodup ∧
        (∀ t, t ∈ entries.map WalkEntry.team ↔ t = root ∨ Ancestor teams root t) ∧
        ∀ e ∈ entries, ∀ n, StepsUp teams root n e.team ↔ n = e.depth) ∧
      ∀ all, (ofList teams).walk none = .ok all →
        root ∈ all.map WalkEntry.team ∧
        ∀ before e after, all = before ++ e :: after → e.team = root →
          (ofList teams).walk (some root.id) =
            .ok ((e :: after.takeWhile fun x => e.depth < x.depth).map (WalkEntry.lower e.depth)) := by
  have keyed := keyed_ofList teams
  have hlisted : ∀ t, t ∈ (ofList teams).listed ↔ t ∈ teams := fun t => mem_listed_ofList distinct
  have hancestor : Ancestor (ofList teams).listed = Ancestor teams := by
    rw [Ancestor, Ancestor, parent_congr hlisted]
  have hroot' : root ∈ (ofList teams).listed := (hlisted root).2 hroot
  have hiff := exists_walk_some_iff keyed hroot'
  rw [hancestor] at hiff
  refine ⟨hiff, ?_, ?_⟩
  · intro entries hw
    have honce : (entries.map WalkEntry.team).Nodup := by
      have hids := (visit_distinct (walk_some_eq_walkFrom keyed hroot' ▸ hw)).1
      refine List.Nodup.of_map Team.id ?_
      rwa [List.map_map]
    have hmem := @mem_walk_some_iff _ entries keyed root hroot' hw
    have hsteps := stepsUp_of_mem_walk keyed hroot' hw
    rw [hancestor] at hmem
    rw [stepsUp_congr hlisted] at hsteps
    refine ⟨honce, fun t => hmem, fun e he n => ⟨fun hn => ?_, fun hn => hn ▸ hsteps e he⟩⟩
    exact stepsUp_unique distinct (hiff.1 ⟨entries, hw⟩) hn (hsteps e he)
  · intro all hw
    refine ⟨(isWalk_ofList distinct hw).perm.mem_iff.2 hroot, ?_⟩
    rintro before e after rfl rfl
    exact walk_some_of_block keyed hw

/-- A team in the middle of a tree: its walk is a block of the walk of all teams.  It is the same with
two teams beside the tree that are each other's parent, when the walk of all teams is refused. -/
theorem walk_ofList_some_middle :
    let root : Team := ⟨2, "Billing", .unit, some 1⟩
    let leaf : Team := ⟨4, "Ads", .team, some 2⟩
    let teams : List Team := [leaf, root, ⟨1, "Products", .cluster, none⟩, ⟨3, "Search", .team, some 1⟩]
    let others : List Team := [⟨8, "A", .team, some 9⟩, ⟨9, "B", .team, some 8⟩]
    (teams.map Team.id).Nodup ∧ ((teams ++ others).map Team.id).Nodup ∧ root ∈ teams ∧
      (ofList teams).walk none = .ok [⟨⟨1, "Products", .cluster, none⟩, 0⟩, ⟨root, 1⟩, ⟨leaf, 2⟩,
        ⟨⟨3, "Search", .team, some 1⟩, 1⟩] ∧
      (ofList teams).walk (some 2) = .ok [⟨root, 0⟩, ⟨leaf, 1⟩] ∧
      (ofList (teams ++ others)).walk none = .error (.parentCycle 8) ∧
      (ofList (teams ++ others)).walk (some 2) = .ok [⟨root, 0⟩, ⟨leaf, 1⟩] ∧
      ¬ Ancestor (teams ++ others) root root ∧ Ancestor (teams ++ others) root leaf ∧
      ∀ n, StepsUp (teams ++ others) root n leaf ↔ n = 1 := by
  intro root leaf teams others
  have distinct : (teams.map Team.id).Nodup := by decide
  have distinct' : ((teams ++ others).map Team.id).Nodup := by decide
  have hroot : root ∈ teams := by decide
  have hall : (ofList teams).walk none = .ok [⟨⟨1, "Products", .cluster, none⟩, 0⟩, ⟨root, 1⟩,
      ⟨leaf, 2⟩, ⟨⟨3, "Search", .team, some 1⟩, 1⟩] := by decide +kernel
  have hrefused : (ofList (teams ++ others)).walk none = .error (.parentCycle 8) := by decide +kernel
  have hsome : (ofList (teams ++ others)).walk (some 2) = .ok [⟨root, 0⟩, ⟨leaf, 1⟩] := by decide +kernel
  obtain ⟨-, -, hblock⟩ := walk_ofList_some distinct hroot
  obtain ⟨hiff, hlist, -⟩ := walk_ofList_some distinct' (List.mem_append_left others hroot)
  obtain ⟨-, hmem, hsteps⟩ := hlist _ hsome
  have hleaf : Ancestor (teams ++ others) root leaf :=
    ((hmem leaf).1 (by decide)).resolve_left (by decide)
  exact ⟨distinct, distinct', hroot, hall, (hblock _ hall).2 [_] ⟨root, 1⟩ _ rfl rfl, hrefused, hsome,
    hiff.1 ⟨_, hsome⟩, hleaf, hsteps ⟨leaf, 1⟩ (by decide)⟩

end Hierarchy

end Objectives
