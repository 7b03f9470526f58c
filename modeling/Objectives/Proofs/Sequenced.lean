/- # Records in order among their siblings

Goals, key results and periods are kept in order by a key each, among siblings: the goals of one
team in one period, the key results of one goal, and all periods.  What keeps the keys of siblings
apart is the same for the three kinds of record.

Main definitions:

* `Sequenced` — a kind of record with its siblings and its order key;
* `Table.InOrder` — a table in which no two siblings have one order key, and all keys lie between
  1 and a bound;
* `Table.Placed` — a table whose records all have a place in another table.

Main results:

* `Table.InOrder.of_placed` — records that keep their place stay in order;
* `Table.InOrder.insert_orderAfter` — a new last sibling keeps a table in order;
* `Table.InOrder.move` — **a move exchanges two keys and keeps a table in order**;
* `Table.InOrder.nodup_orders` — the order keys of siblings are pairwise distinct.
-/

import Objectives.Memory.Calls
import Objectives.Proofs.Table

set_option relaxedAutoImplicit false
set_option autoImplicit false

namespace Objectives

/-- A kind of record that is kept in order among siblings. -/
class Sequenced (ν : Type) where
  /-- What siblings have in common. -/
  Family : Type
  id : ν → Int
  family : ν → Family
  order : ν → Int
  setOrder : Int → ν → ν
  id_setOrder : ∀ o v, id (setOrder o v) = id v
  family_setOrder : ∀ o v, family (setOrder o v) = family v
  order_setOrder : ∀ o v, order (setOrder o v) = o

/-- The goals of one team in one period are siblings. -/
instance : Sequenced Goal where
  Family := TeamId × PeriodId
  id := Goal.id
  family g := (g.team, g.period)
  order := Goal.sortOrder
  setOrder order g := { g with sortOrder := order }
  id_setOrder _ _ := rfl
  family_setOrder _ _ := rfl
  order_setOrder _ _ := rfl

/-- The key results of one goal are siblings. -/
instance : Sequenced KeyResult where
  Family := GoalId
  id := KeyResult.id
  family := KeyResult.goal
  order := KeyResult.sortOrder
  setOrder order k := { k with sortOrder := order }
  id_setOrder _ _ := rfl
  family_setOrder _ _ := rfl
  order_setOrder _ _ := rfl

/-- All periods are siblings. -/
instance : Sequenced Period where
  Family := Unit
  id := Period.id
  family _ := ()
  order := Period.sortOrder
  setOrder order p := { p with sortOrder := order }
  id_setOrder _ _ := rfl
  family_setOrder _ _ := rfl
  order_setOrder _ _ := rfl

namespace Table

variable {ν : Type} [Sequenced ν]

open Sequenced (family order setOrder)

/-- The records are stored under their identifiers, no two siblings have one order key, and the
order keys lie between 1 and a bound. -/
structure InOrder (t : Table Int ν) (bound : Int) : Prop where
  keyed : t.Keyed Sequenced.id
  distinct : ∀ i j a b, t.get? i = some a → t.get? j = some b → family a = family b →
    order a = order b → i = j
  one_le : ∀ i a, t.get? i = some a → 1 ≤ order a
  le_bound : ∀ i a, t.get? i = some a → order a ≤ bound

/-- Every record of the first table has, under the same key, its place in the second. -/
def Placed (t' t : Table Int ν) : Prop :=
  ∀ k v', t'.get? k = some v' → ∃ v, t.get? k = some v ∧ Sequenced.id v' = Sequenced.id v ∧
    family v' = family v ∧ order v' = order v

/-! ### Records that keep their place -/

namespace Placed

variable {t t' t'' : Table Int ν}

theorem refl (t : Table Int ν) : t.Placed t := by
  intro k v h
  exact ⟨v, h, rfl, rfl, rfl⟩

theorem trans (h' : t''.Placed t') (h : t'.Placed t) : t''.Placed t := by
  intro k v'' hget
  obtain ⟨v', hget', hid', hfamily', horder'⟩ := h' k v'' hget
  obtain ⟨v, hget, hid, hfamily, horder⟩ := h k v' hget'
  exact ⟨v, hget, hid'.trans hid, hfamily'.trans hfamily, horder'.trans horder⟩

theorem filter (t : Table Int ν) (keep : Int → ν → Bool) : (t.filter keep).Placed t := by
  intro k v h
  rw [get?_filter, Option.filter_eq_some_iff] at h
  exact ⟨v, h.1, rfl, rfl, rfl⟩

theorem erase (t : Table Int ν) (k : Int) : (t.erase k).Placed t :=
  filter t _

/-- A record that takes over the place of the one under its key. -/
theorem insert {k : Int} {v v' : ν} (hget : t.get? k = some v)
    (hid : Sequenced.id v' = Sequenced.id v) (hfamily : family v' = family v)
    (horder : order v' = order v) : (t.insert k v').Placed t := by
  intro k' w h
  rw [get?_insert] at h
  by_cases hk : k = k'
  · rw [if_pos hk, Option.some_inj] at h
    subst h
    exact ⟨v, hk ▸ hget, hid, hfamily, horder⟩
  · rw [if_neg hk] at h
    exact ⟨w, h, rfl, rfl, rfl⟩

theorem modify (t : Table Int ν) (k : Int) {f : ν → ν}
    (hid : ∀ v, Sequenced.id (f v) = Sequenced.id v) (hfamily : ∀ v, family (f v) = family v)
    (horder : ∀ v, order (f v) = order v) : (t.modify k f).Placed t := by
  intro k' w h
  rw [get?_modify] at h
  by_cases hk : k' = k
  · rw [if_pos hk, Option.map_eq_some_iff] at h
    obtain ⟨v, hv, rfl⟩ := h
    exact ⟨v, hv, hid v, hfamily v, horder v⟩
  · rw [if_neg hk] at h
    exact ⟨w, h, rfl, rfl, rfl⟩

end Placed

namespace InOrder

variable {t t' : Table Int ν} {bound bound' : Int}

theorem empty (bound : Int) : (Table.empty : Table Int ν).InOrder bound where
  keyed := Keyed.empty
  distinct i _ a _ h := by rw [get?_empty] at h; cases h
  one_le i a h := by rw [get?_empty] at h; cases h
  le_bound i a h := by rw [get?_empty] at h; cases h

theorem mono (h : t.InOrder bound) (hle : bound ≤ bound') : t.InOrder bound' where
  keyed := h.keyed
  distinct := h.distinct
  one_le := h.one_le
  le_bound i a ha := Int.le_trans (h.le_bound i a ha) hle

/-- Records that keep their place stay in order. -/
theorem of_placed (h : t.InOrder bound) (hp : t'.Placed t) : t'.InOrder bound where
  keyed k v' hv' := by
    obtain ⟨v, hv, hid, -, -⟩ := hp k v' hv'
    rw [hid, h.keyed k v hv]
  distinct i j a' b' ha' hb' hfamily horder := by
    obtain ⟨a, ha, -, hfa, hoa⟩ := hp i a' ha'
    obtain ⟨b, hb, -, hfb, hob⟩ := hp j b' hb'
    refine h.distinct i j a b ha hb ?_ ?_
    · rw [← hfa, ← hfb, hfamily]
    · rw [← hoa, ← hob, horder]
  one_le i a' ha' := by
    obtain ⟨a, ha, -, -, hoa⟩ := hp i a' ha'
    rw [hoa]
    exact h.one_le i a ha
  le_bound i a' ha' := by
    obtain ⟨a, ha, -, -, hoa⟩ := hp i a' ha'
    rw [hoa]
    exact h.le_bound i a ha

/-! ### New last siblings -/

/-- A record whose order key is greater than those of all its siblings keeps a table in order,
whether it is new or comes from another family. -/
theorem insert_last (h : t.InOrder bound) (hle : bound ≤ bound') {k : Int} {v : ν}
    (hid : Sequenced.id v = k)
    (last : ∀ i a, i ≠ k → t.get? i = some a → family a = family v → order a < order v)
    (one_le : 1 ≤ order v) (le_bound : order v ≤ bound') : (t.insert k v).InOrder bound' where
  keyed := h.keyed.insert hid
  distinct i j a b ha hb hfamily horder := by
    rw [get?_insert] at ha hb
    by_cases hi : k = i <;> by_cases hj : k = j
    · rw [← hi, ← hj]
    · rw [if_pos hi, Option.some_inj] at ha
      rw [if_neg hj] at hb
      subst ha
      have := last j b (Ne.symm hj) hb hfamily.symm
      omega
    · rw [if_neg hi] at ha
      rw [if_pos hj, Option.some_inj] at hb
      subst hb
      have := last i a (Ne.symm hi) ha hfamily
      omega
    · rw [if_neg hi] at ha
      rw [if_neg hj] at hb
      exact h.distinct i j a b ha hb hfamily horder
  one_le i a ha := by
    rw [get?_insert] at ha
    by_cases hi : k = i
    · rw [if_pos hi, Option.some_inj] at ha
      rw [← ha]
      exact one_le
    · rw [if_neg hi] at ha
      exact h.one_le i a ha
  le_bound i a ha := by
    rw [get?_insert] at ha
    by_cases hi : k = i
    · rw [if_pos hi, Option.some_inj] at ha
      rw [← ha]
      exact le_bound
    · rw [if_neg hi] at ha
      exact Int.le_trans (h.le_bound i a ha) hle

/-- The key of a new last sibling is positive if the others are. -/
theorem one_le_orderAfter {orders : List Int} (h : ∀ o ∈ orders, 1 ≤ o) :
    1 ≤ Memory.orderAfter orders := by
  unfold Memory.orderAfter
  cases hmax : orders.max? with
  | none => simp
  | some greatest =>
    have := h greatest (List.max?_mem hmax)
    simp only [Option.getD_some]
    omega

/-- The key of a new last sibling exceeds a bound of the others by at most one. -/
theorem orderAfter_le {orders : List Int} (h0 : 0 ≤ bound) (h : ∀ o ∈ orders, o ≤ bound) :
    Memory.orderAfter orders ≤ bound + 1 := by
  unfold Memory.orderAfter
  cases hmax : orders.max? with
  | none =>
    simp only [Option.getD_none]
    omega
  | some greatest =>
    have := h greatest (List.max?_mem hmax)
    simp only [Option.getD_some]
    omega

/-- A record that is put after its siblings keeps a table in order, with a bound that is greater by
one. -/
theorem insert_orderAfter (h : t.InOrder bound) (h0 : 0 ≤ bound) {k : Int} {v : ν}
    (hid : Sequenced.id v = k) (siblings : List ν) (hsub : ∀ a ∈ siblings, a ∈ t.values)
    (hall : ∀ i a, i ≠ k → t.get? i = some a → family a = family v → a ∈ siblings)
    (horder : order v = Memory.orderAfter (siblings.map order)) :
    (t.insert k v).InOrder (bound + 1) := by
  have hsiblings : ∀ o ∈ siblings.map order, 1 ≤ o ∧ o ≤ bound := by
    intro o ho
    obtain ⟨a, ha, rfl⟩ := List.mem_map.1 ho
    obtain ⟨i, hi⟩ := mem_values_iff.1 (hsub a ha)
    exact ⟨h.one_le i a hi, h.le_bound i a hi⟩
  refine h.insert_last (by omega) hid ?_ ?_ ?_
  · intro i a hi ha hfamily
    rw [horder]
    exact Memory.lt_orderAfter (List.mem_map_of_mem (hall i a hi ha hfamily))
  · rw [horder]
    exact one_le_orderAfter fun o ho => (hsiblings o ho).1
  · rw [horder]
    exact orderAfter_le h0 fun o ho => (hsiblings o ho).2

/-! ### Moves -/

section Exchange

variable {i j : Int} {a b : ν}

/-- After an exchange of two order keys each record is the one of before, but for its order key if it
is one of the two. -/
theorem exchange_view (ha : t.get? i = some a) (hb : t.get? j = some b) (hij : i ≠ j) {k : Int}
    {v' : ν}
    (hget : (Memory.setOrders setOrder t [(i, order b), (j, order a)]).get? k = some v') :
    ∃ v, t.get? k = some v ∧ Sequenced.id v' = Sequenced.id v ∧ family v' = family v ∧
      order v' = if k = i then order b else if k = j then order a else order v := by
  simp only [Memory.setOrders, List.foldl_cons, List.foldl_nil, get?_modify] at hget
  by_cases hki : k = i
  · subst hki
    rw [if_neg hij, if_pos rfl, ha, Option.map_some, Option.some_inj] at hget
    subst hget
    exact ⟨a, ha, Sequenced.id_setOrder _ _, Sequenced.family_setOrder _ _,
      by rw [if_pos rfl, Sequenced.order_setOrder]⟩
  · by_cases hkj : k = j
    · subst hkj
      rw [if_pos rfl, if_neg hki, hb, Option.map_some, Option.some_inj] at hget
      subst hget
      exact ⟨b, hb, Sequenced.id_setOrder _ _, Sequenced.family_setOrder _ _,
        by rw [if_neg hki, if_pos rfl, Sequenced.order_setOrder]⟩
    · rw [if_neg hkj, if_neg hki] at hget
      exact ⟨v', hget, rfl, rfl, by rw [if_neg hki, if_neg hkj]⟩

/-- After an exchange between siblings each record has the family and the order key that one of
before has: under the other key of the two, or under its own. -/
theorem exchange_source (ha : t.get? i = some a) (hb : t.get? j = some b) (hij : i ≠ j)
    (hfamily : family a = family b) {k : Int} {v' : ν}
    (hget : (Memory.setOrders setOrder t [(i, order b), (j, order a)]).get? k = some v') :
    ∃ v, t.get? (if k = i then j else if k = j then i else k) = some v ∧
      family v' = family v ∧ order v' = order v := by
  obtain ⟨v, hv, -, hf, ho⟩ := exchange_view ha hb hij hget
  by_cases hki : k = i
  · rw [if_pos hki] at ho ⊢
    rw [hki, ha, Option.some_inj] at hv
    exact ⟨b, hb, by rw [hf, ← hv, hfamily], ho⟩
  · rw [if_neg hki] at ho ⊢
    by_cases hkj : k = j
    · rw [if_pos hkj] at ho ⊢
      rw [hkj, hb, Option.some_inj] at hv
      exact ⟨a, ha, by rw [hf, ← hv, hfamily], ho⟩
    · rw [if_neg hkj] at ho ⊢
      exact ⟨v, hv, hf, ho⟩

/-- Two siblings that exchange their order keys leave a table in order. -/
theorem exchange (h : t.InOrder bound) (ha : t.get? i = some a) (hb : t.get? j = some b)
    (hij : i ≠ j) (hfamily : family a = family b) :
    (Memory.setOrders setOrder t [(i, order b), (j, order a)]).InOrder bound where
  keyed k v' hget := by
    obtain ⟨v, hv, hid, -, -⟩ := exchange_view ha hb hij hget
    rw [hid, h.keyed k v hv]
  distinct k l c d hc hd hcd horder := by
    obtain ⟨c', hc', hfc, hoc⟩ := exchange_source ha hb hij hfamily hc
    obtain ⟨d', hd', hfd, hod⟩ := exchange_source ha hb hij hfamily hd
    have hkeys := h.distinct _ _ c' d' hc' hd' (by rw [← hfc, ← hfd, hcd])
      (by rw [← hoc, ← hod, horder])
    -- exchanging two keys is injective
    grind
  one_le k v' hget := by
    obtain ⟨v, hv, -, ho⟩ := exchange_source ha hb hij hfamily hget
    rw [ho]
    exact h.one_le _ v hv
  le_bound k v' hget := by
    obtain ⟨v, hv, -, ho⟩ := exchange_source ha hb hij hfamily hget
    rw [ho]
    exact h.le_bound _ v hv

end Exchange

/-- **A move exchanges two keys and keeps a table in order**: of the item and of a sibling of it, or
nothing. -/
theorem move (h : t.InOrder bound) {k : Int} {v : ν} (hget : t.get? k = some v)
    {siblings : List Sibling} (hsiblings : ∀ s ∈ siblings, ∃ w, t.get? s.1 = some w ∧
      family w = family v ∧ order w = s.2) (direction : Direction) :
    (Memory.setOrders setOrder t (Memory.moveAmong siblings k (order v) direction).2).InOrder
      bound := by
  unfold Memory.moveAmong
  split
  · rename_i neighbor neighborOrder hnearest
    obtain ⟨w, hw, hfamily, horder⟩ := hsiblings _ (nearestSibling_mem hnearest)
    have hside := nearestSibling_side hnearest
    simp only at hw horder
    subst horder
    -- the neighbour lies on one side of the item, so it is not the item
    have hne : k ≠ neighbor := by
      rintro rfl
      rw [hget, Option.some_inj] at hw
      subst hw
      cases direction <;> simp [onSide] at hside
    exact h.exchange hget hw hne hfamily.symm
  · exact h

/-! ### Siblings -/

/-- The order keys of siblings are pairwise distinct. -/
theorem nodup_orders (h : t.InOrder bound) {list : List ν} (hsub : list.Sublist t.values)
    (hfamily : ∀ a ∈ list, ∀ b ∈ list, family a = family b) : (list.map order).Nodup := by
  refine List.Nodup.map_on ?_ (h.keyed.nodup_values.sublist hsub)
  intro a ha b hb horder
  have hga := h.keyed.get?_of_mem (hsub.subset ha)
  have hgb := h.keyed.get?_of_mem (hsub.subset hb)
  have hid := h.distinct _ _ a b hga hgb (hfamily a ha b hb) horder
  rw [hid, hgb, Option.some_inj] at hga
  exact hga.symm

end InOrder

end Table

end Objectives
