/- # Moving an item in its line

The siblings of an item stand in a line, in the order of their keys.  The keys of siblings are
pairwise distinct, so that there is one such line, and the neighbour that a move finds is the item
next to the moved one in it.  A move changes the places of the two and nothing else, and the opposite
move of the same item takes it back.

Main definitions:

* `Table.Line` — the siblings of one family as they stand in line;
* `Memory.line` — the line that an item stands in;
* `Memory.Movable` — a goal that is moved by its owner, a key result or a period;
* `Memory.AtEnd` — the item stands at the end of its line;
* `Memory.reorder` — a store with other keys for some siblings of an item.

Main results:

* `nearestSibling_of_line` — the neighbour on one side is the next in line;
* `Table.Line.swap` — an exchange of two adjacent keys changes the places of two in line;
* `Memory.Reachable.carry_move_adjacent` — **a move at the end of a line changes nothing, and any other
  changes the places of two adjacent items**.
-/

import Objectives.Proofs.Refusal.Memory
import Objectives.Proofs.Rollup

set_option relaxedAutoImplicit false
set_option autoImplicit false

namespace Objectives

/-! ### Next in line -/

/-- What is next in a direction, between what stands before and what stands after. -/
def Direction.next {α : Type} (before after : List α) : Direction → Option α
  | up => before.getLast?
  | down => after.head?

/-- The way back. -/
def Direction.opposite : Direction → Direction
  | up => down
  | down => up

/-- Two neighbours as they stand in line, the second on the side of the first that a direction points
to. -/
def Direction.pair {α : Type} (a b : α) : Direction → List α
  | up => [b, a]
  | down => [a, b]

namespace Direction

variable {α : Type}

/-- Two neighbours are seen from the other one in the opposite direction. -/
theorem pair_opposite (direction : Direction) (a b : α) :
    direction.opposite.pair b a = direction.pair a b := by
  cases direction <;> rfl

/-- Of two neighbours the second is next to the first. -/
theorem exists_next_eq (direction : Direction) (a b : α) (before after : List α) :
    ∃ before' after', before ++ direction.pair a b ++ after = before' ++ a :: after' ∧
      direction.next before' after' = some b := by
  cases direction with
  | up => exact ⟨before ++ [b], after, by simp [pair], by simp [next]⟩
  | down => exact ⟨before, b :: after, by simp [pair], rfl⟩

/-- What is next to an element is its neighbour. -/
theorem exists_pair_eq {direction : Direction} {a b : α} {before after : List α}
    (h : direction.next before after = some b) :
    ∃ before' after', before ++ a :: after = before' ++ direction.pair a b ++ after' := by
  cases direction with
  | up =>
    obtain ⟨front, rfl⟩ := List.getLast?_eq_some_iff.1 h
    exact ⟨front, after, by simp [pair]⟩
  | down =>
    obtain ⟨rest, rfl⟩ := List.head?_eq_some_iff.1 h
    exact ⟨before, rest, by simp [pair]⟩

end Direction

/-- The keys rise along the list. -/
def Ascending (list : List Sibling) : Prop := list.Pairwise fun a b => a.2 < b.2

section Nearest

variable {direction : Direction} {siblings list before after : List Sibling} {s : Sibling}
  {id key : Int}

/-- If the siblings on the side are listed with the nearer ones first, the neighbour is the first. -/
theorem nearestSibling_eq_head? {near : List Sibling}
    (hmem : ∀ t, t ∈ near ↔ t ∈ siblings ∧ onSide direction key t = true)
    (hnear : near.Pairwise fun a b => nearer direction b a = false) :
    nearestSibling siblings key direction = near.head? := by
  cases h : nearestSibling siblings key direction with
  | none =>
    have hnone := nearestSibling_eq_none_iff.1 h
    have hempty : near = [] := by
      refine List.eq_nil_iff_forall_not_mem.2 fun t ht => ?_
      obtain ⟨ht, hside⟩ := (hmem t).1 ht
      rw [hnone t ht] at hside
      cases hside
    rw [hempty, List.head?_nil]
  | some s =>
    obtain ⟨hs, hleast⟩ := nearestSibling_spec h
    cases near with
    | nil => exact absurd ((hmem s).2 (List.mem_filter.1 hs)) List.not_mem_nil
    | cons first rest =>
      rcases List.mem_cons.1 ((hmem s).2 (List.mem_filter.1 hs)) with rfl | hlater
      · rfl
      · -- the first is nearer than all that follow it
        have hfirst := hleast first (List.mem_filter.2 ((hmem first).1 (List.mem_cons_self ..)))
        rw [(List.pairwise_cons.1 hnear).1 s hlater] at hfirst
        cases hfirst

/-- **The neighbour on one side is the next in line.** -/
theorem nearestSibling_of_line (hmem : ∀ s, s ∈ siblings ↔ s ∈ before ++ (id, key) :: after)
    (hline : Ascending (before ++ (id, key) :: after)) (direction : Direction) :
    nearestSibling siblings key direction = direction.next before after := by
  obtain ⟨hbefore, hlast, hbetween⟩ := List.pairwise_append.1 hline
  obtain ⟨hlater, hafter⟩ := List.pairwise_cons.1 hlast
  have hearlier : ∀ t ∈ before, t.2 < key := fun t ht =>
    hbetween t ht (id, key) (List.mem_cons_self ..)
  have hcases : ∀ t, t ∈ siblings ↔ t ∈ before ∨ t = (id, key) ∨ t ∈ after := by
    intro t
    rw [hmem, List.mem_append, List.mem_cons]
  cases direction with
  | up =>
    rw [Direction.next, ← List.head?_reverse]
    refine nearestSibling_eq_head? (fun t => ?_) ?_
    · have := hearlier t
      have := hlater t
      rw [hcases, List.mem_reverse, onSide, decide_eq_true_eq]
      grind
    · refine List.pairwise_reverse.2 (hbefore.imp fun {a b} hab => ?_)
      grind [nearer]
  | down =>
    refine nearestSibling_eq_head? (fun t => ?_) ?_
    · have := hearlier t
      have := hlater t
      rw [hcases, onSide, decide_eq_true_eq]
      grind
    · refine hafter.imp fun {a b} hab => ?_
      grind [nearer]

end Nearest

/-! ### Lines of a table -/

/-- A kind of record whose order key is a field like any other: the last one that is set counts. -/
class LawfulOrder (ν : Type) [Sequenced ν] : Prop where
  setOrder_order : ∀ v : ν, Sequenced.setOrder (Sequenced.order v) v = v
  setOrder_setOrder : ∀ o o' (v : ν),
    Sequenced.setOrder o (Sequenced.setOrder o' v) = Sequenced.setOrder o v

instance : LawfulOrder Goal := ⟨fun _ => rfl, fun _ _ _ => rfl⟩

instance : LawfulOrder KeyResult := ⟨fun _ => rfl, fun _ _ _ => rfl⟩

instance : LawfulOrder Period := ⟨fun _ => rfl, fun _ _ _ => rfl⟩

namespace Table

variable {ν : Type} [Sequenced ν]

open Sequenced (Family family order setOrder)

/-- The records of a family, each with its identifier and its key, in the order of their keys. -/
structure Line (t : Table Int ν) (f : Family ν) (line : List Sibling) : Prop where
  ascending : Ascending line
  mem_iff : ∀ s, s ∈ line ↔ ∃ v, t.get? s.1 = some v ∧ family v = f ∧ order v = s.2

/-- Two keys that are set one after the other. -/
theorem get?_setOrders_pair (t : Table Int ν) {i j : Int} (hij : i ≠ j) (o o' : Int) (k : Int) :
    (Memory.setOrders setOrder t [(i, o), (j, o')]).get? k =
      (t.get? k).map fun v => if k = i then setOrder o v else if k = j then setOrder o' v else v := by
  simp only [Memory.setOrders, List.foldl_cons, List.foldl_nil, get?_modify]
  by_cases hi : k = i
  · subst hi
    simp [hij]
  · by_cases hj : k = j
    · subst hj
      simp [hi]
    · simp [hi, hj]

namespace Line

variable {t : Table Int ν} {f : Family ν} {line line' before after : List Sibling} {a b x y : Int}

/-- A family stands in one line only. -/
theorem unique (h : t.Line f line) (h' : t.Line f line') : line = line' := by
  have nodup {list : List Sibling} (h : Ascending list) : list.Nodup := by
    refine h.imp fun {a b} hab heq => ?_
    subst heq
    omega
  have hperm : line.Perm line' := by
    refine (List.perm_ext_iff_of_nodup (nodup h.ascending) (nodup h'.ascending)).2 fun s => ?_
    rw [h.mem_iff, h'.mem_iff]
  refine hperm.eq_of_pairwise ?_ h.ascending h'.ascending
  intro a b _ _ hab hba
  omega

/-- No identifier occurs twice in a line. -/
theorem nodup_ids (h : t.Line f line) : (line.map Prod.fst).Nodup := by
  refine List.pairwise_map.2 (h.ascending.imp_of_mem fun {s s'} hs hs' hlt hid => ?_)
  obtain ⟨v, hv, -, ho⟩ := (h.mem_iff s).1 hs
  obtain ⟨v', hv', -, ho'⟩ := (h.mem_iff s').1 hs'
  rw [hid, hv', Option.some_inj] at hv
  subst hv
  omega

/-- A record stands in the line of its family. -/
theorem mem_ids (h : t.Line f line) {k : Int} {v : ν} (hget : t.get? k = some v)
    (hv : family v = f) : k ∈ line.map Prod.fst :=
  List.mem_map_of_mem (f := Prod.fst) ((h.mem_iff (k, order v)).2 ⟨v, hget, hv, rfl⟩)

/-- A record stands in line with its key. -/
theorem order_eq (h : t.Line f line) {k o : Int} (hmem : (k, o) ∈ line) {v : ν}
    (hget : t.get? k = some v) : order v = o := by
  obtain ⟨w, hw, -, ho⟩ := (h.mem_iff _).1 hmem
  rw [hget, Option.some_inj] at hw
  rw [hw, ho]

/-- What stands before and after two neighbours is neither of them. -/
theorem ids_ne (h : t.Line f (before ++ (a, x) :: (b, y) :: after)) :
    a ≠ b ∧ ∀ s, s ∈ before ∨ s ∈ after → s.1 ≠ a ∧ s.1 ≠ b := by
  have hids := List.pairwise_append.1 (List.pairwise_map.1 h.nodup_ids)
  obtain ⟨-, hrest, hbefore⟩ := hids
  obtain ⟨ha, hrest⟩ := List.pairwise_cons.1 hrest
  obtain ⟨hb, -⟩ := List.pairwise_cons.1 hrest
  refine ⟨ha (b, y) (by simp), ?_⟩
  rintro s (hs | hs)
  · exact ⟨hbefore s hs (a, x) (by simp), hbefore s hs (b, y) (by simp)⟩
  · exact ⟨(ha s (by simp [hs])).symm, (hb s hs).symm⟩

/-- An exchange of two adjacent keys changes the places of two in line. -/
theorem swap (h : t.Line f (before ++ (a, x) :: (b, y) :: after)) {t' : Table Int ν}
    (hget : ∀ k, t'.get? k = (t.get? k).map fun v =>
      if k = a then setOrder y v else if k = b then setOrder x v else v) :
    t'.Line f (before ++ (b, x) :: (a, y) :: after) where
  ascending := by
    have hkeys := List.pairwise_map.2 h.ascending
    exact List.pairwise_map.1 (by simpa using hkeys)
  mem_iff s := by
    obtain ⟨k, o⟩ := s
    obtain ⟨hab, hne⟩ := h.ids_ne
    have hrest := hne (k, o)
    have hold := h.mem_iff (k, o)
    obtain ⟨va, hva, hfa, -⟩ := (h.mem_iff (a, x)).1 (by simp)
    obtain ⟨vb, hvb, hfb, -⟩ := (h.mem_iff (b, y)).1 (by simp)
    simp only [List.mem_append, List.mem_cons, Prod.mk.injEq] at hold hrest ⊢
    rw [hget]
    by_cases hka : k = a
    · subst hka
      simp only [hva, Option.map_some, if_true, Option.some_inj, exists_eq_left',
        Sequenced.family_setOrder, Sequenced.order_setOrder, hfa, true_and]
      grind
    · by_cases hkb : k = b
      · subst hkb
        simp only [hvb, Option.map_some, if_true, if_neg hka, Option.some_inj, exists_eq_left',
          Sequenced.family_setOrder, Sequenced.order_setOrder, hfb, true_and]
        grind
      · simp only [if_neg hka, if_neg hkb, Option.map_id']
        rw [← hold]
        grind

section Exchange

variable {direction : Direction} {i j : Int} {o o' : Int}
  (h : t.Line f (before ++ direction.pair (i, o) (j, o') ++ after))

include h

theorem exchange_ne : i ≠ j := by
  cases direction with
  | up => exact (ids_ne (by simpa [Direction.pair] using h)).1.symm
  | down => exact (ids_ne (by simpa [Direction.pair] using h)).1

/-- Two neighbours that exchange their keys change their places in line. -/
theorem exchange : (Memory.setOrders setOrder t [(i, o'), (j, o)]).Line f
    (before ++ direction.pair (j, o) (i, o') ++ after) := by
  have hne := h.exchange_ne
  have hget := get?_setOrders_pair t hne o' o
  cases direction with
  | up =>
    rw [Direction.pair, List.append_assoc] at h ⊢
    refine h.swap fun k => (hget k).trans ?_
    congr 1
    grind
  | down =>
    rw [Direction.pair, List.append_assoc] at h ⊢
    exact h.swap hget

/-- The record of the first takes the key of the second. -/
theorem get?_exchange {v : ν} (hv : t.get? i = some v) :
    (Memory.setOrders setOrder t [(i, o'), (j, o)]).get? i = some (setOrder o' v) := by
  rw [get?_setOrders_pair t h.exchange_ne, hv, Option.map_some, if_pos rfl]

/-- A second exchange takes the first back. -/
theorem exchange_back [LawfulOrder ν] :
    Memory.setOrders setOrder (Memory.setOrders setOrder t [(i, o'), (j, o)]) [(i, o), (j, o')] =
      t := by
  have hne := h.exchange_ne
  obtain ⟨v, hv, -, ho⟩ := (h.mem_iff (i, o)).1 (by cases direction <;> simp [Direction.pair])
  obtain ⟨w, hw, -, ho'⟩ := (h.mem_iff (j, o')).1 (by cases direction <;> simp [Direction.pair])
  simp only at hv ho hw ho'
  apply ext_get?
  intro k
  rw [get?_setOrders_pair _ hne, get?_setOrders_pair _ hne]
  by_cases hki : k = i
  · subst hki
    simp only [hv, Option.map_some, if_true, LawfulOrder.setOrder_setOrder]
    rw [← ho, LawfulOrder.setOrder_order]
  · by_cases hkj : k = j
    · subst hkj
      simp only [hw, Option.map_some, if_true, if_neg hki, LawfulOrder.setOrder_setOrder]
      rw [← ho', LawfulOrder.setOrder_order]
    · simp only [if_neg hki, if_neg hkj, Option.map_id']

end Exchange

end Line

/-- Siblings that are collected from a table are the records under their identifiers. -/
theorem mem_siblings_iff {t : Table Int ν} (h : t.Keyed Sequenced.id) {list : List ν} {p : ν → Prop}
    (hmem : ∀ v, v ∈ list ↔ v ∈ t.values ∧ p v) {s : Sibling} :
    s ∈ list.map (fun v => (Sequenced.id v, order v)) ↔
      ∃ v, t.get? s.1 = some v ∧ p v ∧ order v = s.2 := by
  rw [List.mem_map]
  constructor
  · rintro ⟨v, hv, rfl⟩
    obtain ⟨hvalue, hp⟩ := (hmem v).1 hv
    exact ⟨v, h.get?_of_mem hvalue, hp, rfl⟩
  · rintro ⟨v, hv, hp, horder⟩
    exact ⟨v, (hmem v).2 ⟨mem_values_iff.2 ⟨s.1, hv⟩, hp⟩, Prod.ext (h s.1 v hv) horder⟩

/-- The siblings of one family, sorted by their keys, are its line. -/
theorem InOrder.line {t : Table Int ν} {bound : Int} (h : t.InOrder bound) {f : Family ν}
    {list : List ν} (hsub : list.Sublist t.values) (hmem : ∀ v, v ∈ list ↔ v ∈ t.values ∧ family v = f) :
    t.Line f (sortBy (fun a b => a.2 ≤ b.2) (list.map fun v => (Sequenced.id v, order v))) where
  ascending := by
    have hsorted : (sortBy (fun a b : Sibling => decide (a.2 ≤ b.2))
        (list.map fun v => (Sequenced.id v, order v))).Pairwise fun a b => decide (a.2 ≤ b.2) = true := by
      refine sortBy_pairwise (fun a b c hab hbc => ?_) (fun a b => ?_) _
      · simp only [decide_eq_true_eq] at *
        omega
      · simp only [decide_eq_true_eq]
        omega
    have hnodup : ((sortBy (fun a b : Sibling => decide (a.2 ≤ b.2))
        (list.map fun v => (Sequenced.id v, order v))).map Prod.snd).Nodup := by
      rw [((sortBy_perm _ _).map Prod.snd).nodup_iff, List.map_map]
      refine h.nodup_orders hsub fun a ha b hb => ?_
      rw [((hmem a).1 ha).2, ((hmem b).1 hb).2]
    refine (hsorted.and (List.pairwise_map.1 hnodup)).imp fun {a b} hab => ?_
    have hle := of_decide_eq_true hab.1
    have hne := hab.2
    omega
  mem_iff s := by
    rw [mem_sortBy]
    exact mem_siblings_iff h.keyed hmem

end Table

/-! ### Lines of a store -/

namespace Memory

/-- An item with its siblings, each with its key: the goals of the team that owns it in its period,
the key results of its goal, and all periods. -/
def siblings (m : Memory) : SequencedItem → List Sibling
  | .goal id _ =>
    match m.goals.get? id with
    | some goal => (m.goalsOwned goal.team goal.period).map fun g => (g.id, g.sortOrder)
    | none => []
  | .keyResult id =>
    match m.keyResults.get? id with
    | some keyResult => (m.keyResultsIn keyResult.goal).map fun k => (k.id, k.sortOrder)
    | none => []
  | .period _ => m.periods.values.map fun p => (p.id, p.sortOrder)

/-- An item with its siblings, in the order of their keys. -/
def line (m : Memory) (item : SequencedItem) : List Sibling :=
  sortBy (fun a b => a.2 ≤ b.2) (m.siblings item)

/-- The item is in the store; a goal is moved in the list of the team that owns it. -/
def Movable (m : Memory) : SequencedItem → Prop
  | .goal id asTeam => ∃ g, m.goals.get? id = some g ∧ ∀ team, asTeam = some team → team = g.team
  | .keyResult id => m.keyResults.contains id = true
  | .period id => m.periods.contains id = true

/-- The item stands at the end of its line that a direction points to. -/
def AtEnd (m : Memory) (item : SequencedItem) : Direction → Prop
  | .up => (m.line item).head?.map Prod.fst = some item.id
  | .down => (m.line item).getLast?.map Prod.fst = some item.id

/-- The store with other keys for some records of the kind of an item, and nothing else changed. -/
def reorder (m : Memory) (orders : List (Int × Int)) : SequencedItem → Memory
  | .goal .. => { m with goals := setOrders Sequenced.setOrder m.goals orders }
  | .keyResult _ => { m with keyResults := setOrders Sequenced.setOrder m.keyResults orders }
  | .period _ => { m with periods := setOrders Sequenced.setOrder m.periods orders }

section Lines

variable {m : Memory} {bound : Int} {item : SequencedItem}

theorem line_goal (h : m.InOrder bound) {id : GoalId} {g : Goal} (hget : m.goals.get? id = some g)
    (asTeam : Option TeamId) : m.goals.Line (g.team, g.period) (m.line (.goal id asTeam)) := by
  simp only [line, siblings, hget]
  refine h.goals.line List.filter_sublist fun g' => ?_
  rw [mem_goalsOwned]
  refine and_congr_right fun _ => ?_
  show _ ↔ (g'.team, g'.period) = (g.team, g.period)
  rw [Prod.mk.injEq]

theorem line_keyResult (h : m.InOrder bound) {id : KeyResultId} {k : KeyResult}
    (hget : m.keyResults.get? id = some k) : m.keyResults.Line k.goal (m.line (.keyResult id)) := by
  simp only [line, siblings, hget]
  exact h.keyResults.line List.filter_sublist fun k' => mem_keyResultsIn

theorem line_period (h : m.InOrder bound) (id : PeriodId) :
    m.periods.Line () (m.line (.period id)) :=
  h.periods.line (List.Sublist.refl _) fun _ => (and_iff_left rfl).symm

/-- A movable item stands in a line with rising keys, in which no identifier occurs twice. -/
theorem Movable.line (h : m.InOrder bound) (hitem : m.Movable item) :
    Ascending (m.line item) ∧ ((m.line item).map Prod.fst).Nodup ∧
      item.id ∈ (m.line item).map Prod.fst := by
  cases item with
  | goal id asTeam =>
    obtain ⟨g, hget, -⟩ := hitem
    have hline := line_goal h hget asTeam
    exact ⟨hline.ascending, hline.nodup_ids, hline.mem_ids hget rfl⟩
  | keyResult id =>
    obtain ⟨k, hget⟩ := Table.contains_iff.1 hitem
    have hline := line_keyResult h hget
    exact ⟨hline.ascending, hline.nodup_ids, hline.mem_ids hget rfl⟩
  | period id =>
    obtain ⟨p, hget⟩ := Table.contains_iff.1 hitem
    have hline := line_period h id
    exact ⟨hline.ascending, hline.nodup_ids, hline.mem_ids hget rfl⟩

/-- A movable item is moved among those that stand in line with it, by the key that it has there. -/
theorem carry_move (h : m.InOrder bound) (hitem : m.Movable item) {key : Int}
    (hkey : (item.id, key) ∈ m.line item) (direction : Direction) :
    carry (.move item direction) m =
      (.ok (moveAmong (m.siblings item) item.id key direction).1,
        m.reorder (moveAmong (m.siblings item) item.id key direction).2 item) := by
  cases item with
  | goal id asTeam =>
    obtain ⟨g, hget, howner⟩ := hitem
    obtain rfl := (line_goal h hget asTeam).order_eq hkey hget
    have hnot : ¬ (asTeam.any fun team => team != g.team) = true := by
      cases asTeam with
      | none => simp
      | some team => simp [howner team rfl]
    simp only [carry, move, siblings, hget]
    rw [if_neg hnot]
    rfl
  | keyResult id =>
    obtain ⟨k, hget⟩ := Table.contains_iff.1 hitem
    obtain rfl := (line_keyResult h hget).order_eq hkey hget
    simp only [carry, move, siblings, hget]
    rfl
  | period id =>
    obtain ⟨p, hget⟩ := Table.contains_iff.1 hitem
    obtain rfl := (line_period h id).order_eq hkey hget
    simp only [carry, move, siblings, hget]
    rfl

/-- The neighbour of an item is the next in line. -/
theorem nearestSibling_siblings (h : m.InOrder bound) (hitem : m.Movable item)
    {before after : List Sibling} {key : Int}
    (hline : m.line item = before ++ (item.id, key) :: after) (direction : Direction) :
    nearestSibling (m.siblings item) key direction = direction.next before after := by
  refine nearestSibling_of_line (fun s => ?_) (hline ▸ (hitem.line h).1) direction
  rw [← hline, Memory.line, mem_sortBy]

/-- A move past an item next in line exchanges the keys of the two. -/
theorem carry_move_past (h : m.InOrder bound) (hitem : m.Movable item) {direction : Direction}
    {before after : List Sibling} {key neighbor neighborKey : Int}
    (hline : m.line item =
      before ++ direction.pair (item.id, key) (neighbor, neighborKey) ++ after) :
    carry (.move item direction) m =
      (.ok (.swapped neighbor), m.reorder [(item.id, neighborKey), (neighbor, key)] item) := by
  obtain ⟨before', after', hsplit, hnext⟩ :=
    direction.exists_next_eq (item.id, key) (neighbor, neighborKey) before after
  have hline' := hline.trans hsplit
  have hkey : (item.id, key) ∈ m.line item := by simp [hline']
  rw [carry_move h hitem hkey, moveAmong, nearestSibling_siblings h hitem hline', hnext]

/-- A move changes nothing where nothing is next in line. -/
theorem carry_move_end (h : m.InOrder bound) (hitem : m.Movable item) {direction : Direction}
    {before after : List Sibling} {key : Int}
    (hline : m.line item = before ++ (item.id, key) :: after)
    (hnext : direction.next before after = none) :
    carry (.move item direction) m = (.ok .atBoundary, m) := by
  have hkey : (item.id, key) ∈ m.line item := by simp [hline]
  rw [carry_move h hitem hkey, moveAmong, nearestSibling_siblings h hitem hline, hnext]
  cases item <;> rfl

/-- An exchange of two adjacent keys. -/
theorem line_reorder (h : m.InOrder bound) (hitem : m.Movable item) {direction : Direction}
    {before after : List Sibling} {key neighbor neighborKey bound' : Int}
    (hline : m.line item =
      before ++ direction.pair (item.id, key) (neighbor, neighborKey) ++ after)
    (h' : (m.reorder [(item.id, neighborKey), (neighbor, key)] item).InOrder bound') :
    (m.reorder [(item.id, neighborKey), (neighbor, key)] item).Movable item ∧
      (m.reorder [(item.id, neighborKey), (neighbor, key)] item).line item =
        before ++ direction.pair (neighbor, key) (item.id, neighborKey) ++ after ∧
      (m.reorder [(item.id, neighborKey), (neighbor, key)] item).reorder
        [(item.id, key), (neighbor, neighborKey)] item = m := by
  cases item with
  | goal id asTeam =>
    obtain ⟨g, hget, howner⟩ := hitem
    have hold := hline ▸ line_goal h hget asTeam
    have hget' := hold.get?_exchange hget
    refine ⟨⟨_, hget', howner⟩, (line_goal h' hget' asTeam).unique hold.exchange, ?_⟩
    exact congrArg (fun goals => { m with goals }) hold.exchange_back
  | keyResult id =>
    obtain ⟨k, hget⟩ := Table.contains_iff.1 hitem
    have hold := hline ▸ line_keyResult h hget
    have hget' := hold.get?_exchange hget
    refine ⟨Table.contains_of_get? hget', (line_keyResult h' hget').unique hold.exchange, ?_⟩
    exact congrArg (fun keyResults => { m with keyResults }) hold.exchange_back
  | period id =>
    obtain ⟨p, hget⟩ := Table.contains_iff.1 hitem
    have hold := hline ▸ line_period h id
    have hget' := hold.get?_exchange hget
    refine ⟨Table.contains_of_get? hget', (line_period h' id).unique hold.exchange, ?_⟩
    exact congrArg (fun periods => { m with periods }) hold.exchange_back

/-- An item stands at the end of its line if nothing is next to it there. -/
theorem atEnd_iff {before after : List Sibling} {key : Int}
    (hline : m.line item = before ++ (item.id, key) :: after)
    (hids : ((m.line item).map Prod.fst).Nodup) (direction : Direction) :
    m.AtEnd item direction ↔ direction.next before after = none := by
  rw [hline] at hids
  obtain ⟨-, hlater, hearlier⟩ := List.pairwise_append.1 (List.pairwise_map.1 hids)
  obtain ⟨hlater, -⟩ := List.pairwise_cons.1 hlater
  cases direction with
  | up =>
    rw [AtEnd, hline, Direction.next, List.getLast?_eq_none_iff]
    cases before with
    | nil => simp
    | cons s rest =>
      have hne := hearlier s (List.mem_cons_self ..) (item.id, key) (List.mem_cons_self ..)
      simpa using hne
  | down =>
    rw [AtEnd, hline, Direction.next, List.head?_eq_none_iff]
    rcases after.eq_nil_or_concat with rfl | ⟨front, s, rfl⟩
    · simp
    · have hne := hlater s (by simp)
      rw [List.concat_eq_append, ← List.cons_append, ← List.append_assoc, List.getLast?_concat]
      simpa using Ne.symm hne

end Lines

/-- **A move at the end of a line changes nothing, and any other changes the places of two adjacent
items.**  A goal that is moved by another team than its owner stays where it is. -/
theorem Reachable.carry_move_adjacent {m : Memory} (hm : m.Reachable) (direction : Direction) :
    (∀ item, m.Movable item →
      Ascending (m.line item) ∧ item.id ∈ (m.line item).map Prod.fst ∧
      (carry (.move item direction) m = (.ok .atBoundary, m) ↔ m.AtEnd item direction) ∧
      (¬ m.AtEnd item direction → ∃ before after key neighbor neighborKey,
        let m' := m.reorder [(item.id, neighborKey), (neighbor, key)] item
        m.line item = before ++ direction.pair (item.id, key) (neighbor, neighborKey) ++ after ∧
        carry (.move item direction) m = (.ok (.swapped neighbor), m') ∧
        m'.line item = before ++ direction.pair (neighbor, key) (item.id, neighborKey) ++ after ∧
        (m'.line item).map Prod.snd = (m.line item).map Prod.snd ∧
        carry (.move item direction.opposite) m' = (.ok (.swapped neighbor), m))) ∧
    ∀ id g team, m.goals.get? id = some g → team ≠ g.team →
      carry (.move (.goal id (some team)) direction) m = (.ok .notOwner, m) := by
  obtain ⟨bound, h0, h⟩ := hm.inOrder
  refine ⟨fun item hitem => ?_, fun id g team hget hteam => ?_⟩
  · obtain ⟨hascending, hids, hmem⟩ := hitem.line h
    refine ⟨hascending, hmem, ?_⟩
    obtain ⟨⟨_, key⟩, hkey, rfl⟩ := List.mem_map.1 hmem
    obtain ⟨before, after, hline⟩ := List.append_of_mem hkey
    have hend := atEnd_iff hline hids direction
    cases hnext : direction.next before after with
    | none =>
      refine ⟨iff_of_true (carry_move_end h hitem hline hnext) (hend.2 hnext), fun hnot => ?_⟩
      exact absurd (hend.2 hnext) hnot
    | some s =>
      obtain ⟨neighbor, neighborKey⟩ := s
      obtain ⟨before', after', hpair⟩ := Direction.exists_pair_eq (a := (item.id, key)) hnext
      have hline' := hline.trans hpair
      have hmove := carry_move_past h hitem hline'
      have hnot : ¬ m.AtEnd item direction := by
        rw [hend, hnext]
        exact Option.some_ne_none _
      refine ⟨iff_of_false (by rw [hmove]; simp) hnot, fun _ => ?_⟩
      refine ⟨before', after', key, neighbor, neighborKey, hline', hmove, ?_⟩
      -- the store after the move is in order as well, so that the opposite move is one past the item
      have h' := h.carry h0 (.move item direction)
      rw [hmove] at h'
      obtain ⟨hitem', hswapped, hback⟩ := line_reorder h hitem hline' h'
      refine ⟨hswapped, ?_, ?_⟩
      · rw [hswapped, hline']
        cases direction <;> simp [Direction.pair]
      · rw [← direction.pair_opposite] at hswapped
        rw [carry_move_past h' hitem' hswapped, hback]
  · have hother : ((some team).any fun team => team != g.team) = true := by simpa using hteam
    simp only [carry, Memory.move, hget]
    rw [if_pos hother]

/-- A store in which the first team owns three goals of one period. -/
def threeGoals : Memory :=
  let draft : GoalDraft := ⟨"Keep", "", .p1, ⟨24, by decide⟩, .delivery, .stability, ""⟩
  let second := ((Command.createGoal 1 3 draft).program.run carry oneGoal).2
  ((Command.createGoal 1 3 draft).program.run carry second).2

/-- The middle one of three goals goes up, and back. -/
theorem middle_goal_moves_up_and_back :
    threeGoals.Reachable ∧ threeGoals.line (.goal 5 none) = [(4, 1), (5, 2), (6, 3)] ∧
      ∃ m', carry (.move (.goal 5 none) .up) threeGoals = (.ok (.swapped 4), m') ∧
        m'.line (.goal 5 none) = [(5, 1), (4, 2), (6, 3)] ∧
        carry (.move (.goal 5 none) .down) m' = (.ok (.swapped 4), threeGoals) := by
  have hreachable : threeGoals.Reachable :=
    (((((Reachable.empty.addTeam _ _ _).addTeam _ _ _).createPeriod _ _ _).run _).run _).run _
  have hline : threeGoals.line (.goal 5 none) = [(4, 1), (5, 2), (6, 3)] := by decide +kernel
  have hmovable : threeGoals.Movable (.goal 5 none) :=
    ⟨⟨5, 1, 3, "Keep", "", .p1, ⟨24, by decide⟩, .delivery, .stability, "", 2⟩, by decide +kernel,
      by simp⟩
  have hnot : ¬ threeGoals.AtEnd (.goal 5 none) .up := by
    rw [AtEnd, hline]
    decide
  obtain ⟨-, -, -, hmove⟩ := (hreachable.carry_move_adjacent .up).1 (.goal 5 none) hmovable
  obtain ⟨before, after, key, neighbor, neighborKey, -, hcarry, -, -, hback⟩ := hmove hnot
  have hanswer : (carry (.move (.goal 5 none) .up) threeGoals).1 = .ok (.swapped 4) := by
    decide +kernel
  have hafter : (carry (.move (.goal 5 none) .up) threeGoals).2.line (.goal 5 none) =
      [(5, 1), (4, 2), (6, 3)] := by decide +kernel
  rw [hcarry] at hanswer hafter
  cases hanswer
  exact ⟨hreachable, hline, _, hcarry, hafter, hback⟩

end Memory

end Objectives
