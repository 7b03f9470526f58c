/- # The contents of tables

What a table holds, said of the lists of its keys and values.

Main definitions:

* `Table.Keyed` — every value is stored under its own key.

Main results:

* `Table.mem_values_iff` — the values are what can be looked up;
* `Table.Keyed.map_values` — **the own keys of the values are the keys of the table**, so that no
  two values have one key;
* `Table.perm_insert` — an insertion puts the new value beside the entries under the other keys;
* `Table.get?_ofList` — looking a key up in the table of a list finds the last entry under it.
-/

import Objectives.Collection.Table
import Mathlib.Data.List.Nodup

set_option relaxedAutoImplicit false
set_option autoImplicit false

namespace Objectives.Table

variable {κ ν : Type} [Key κ] [DecidableEq κ]

/-! ### Keys and values -/

/-- The values of a table are what can be looked up in it. -/
theorem mem_values_iff {t : Table κ ν} {v : ν} : v ∈ t.values ↔ ∃ k, t.get? k = some v := by
  simp only [values, List.mem_map, get?_eq_some_iff]
  constructor
  · rintro ⟨⟨k, v'⟩, hmem, rfl⟩
    exact ⟨k, hmem⟩
  · rintro ⟨k, hmem⟩
    exact ⟨(k, v), hmem, rfl⟩

/-- The keys of a table are those under which a value can be looked up. -/
theorem mem_keys_iff {t : Table κ ν} {k : κ} : k ∈ t.keys ↔ ∃ v, t.get? k = some v := by
  simp only [keys, List.mem_map, get?_eq_some_iff]
  constructor
  · rintro ⟨⟨k', v⟩, hmem, rfl⟩
    exact ⟨v, hmem⟩
  · rintro ⟨v, hmem⟩
    exact ⟨(k, v), hmem, rfl⟩

theorem contains_iff {t : Table κ ν} {k : κ} : t.contains k = true ↔ ∃ v, t.get? k = some v :=
  Option.isSome_iff_exists

theorem contains_of_get? {t : Table κ ν} {k : κ} {v : ν} (h : t.get? k = some v) :
    t.contains k = true :=
  contains_iff.2 ⟨v, h⟩

omit [DecidableEq κ] in
/-- No key occurs twice. -/
theorem nodup_keys (t : Table κ ν) : t.keys.Nodup := by
  rw [keys, List.Nodup, List.pairwise_map]
  exact t.sorted.imp fun h => ne_of_before h

/-- An insertion leaves all keys of the table in it. -/
theorem contains_insert_of_contains {t : Table κ ν} {k k' : κ} {v : ν}
    (h : t.contains k' = true) : (t.insert k v).contains k' = true := by
  obtain ⟨v', hv'⟩ := contains_iff.1 h
  rw [contains_iff, get?_insert]
  by_cases hk : k = k'
  · exact ⟨v, if_pos hk⟩
  · exact ⟨v', by rw [if_neg hk, hv']⟩

/-- A filter keeps the keys whose value the test accepts. -/
theorem contains_filter_iff {t : Table κ ν} {keep : κ → ν → Bool} {k : κ} :
    (t.filter keep).contains k = true ↔ ∃ v, t.get? k = some v ∧ keep k v = true := by
  rw [contains_iff]
  simp only [get?_filter, Option.filter_eq_some_iff]

/-- A key that is kept was there. -/
theorem contains_of_filter {t : Table κ ν} {keep : κ → ν → Bool} {k : κ}
    (h : (t.filter keep).contains k = true) : t.contains k = true := by
  obtain ⟨v, hv, -⟩ := contains_filter_iff.1 h
  exact contains_of_get? hv

/-- A change under one key leaves the keys what they were. -/
@[simp] theorem contains_modify (t : Table κ ν) (k k' : κ) (f : ν → ν) :
    (t.modify k f).contains k' = t.contains k' := by
  rw [contains, contains, get?_modify]
  by_cases h : k' = k
  · rw [if_pos h, Option.isSome_map]
  · rw [if_neg h]

/-- A change under a key that is there puts the changed value in place of the one there. -/
theorem modify_eq_insert {t : Table κ ν} {k : κ} {v : ν} (h : t.get? k = some v) (f : ν → ν) :
    t.modify k f = t.insert k (f v) := by
  apply ext_get?
  intro k'
  rw [get?_modify, get?_insert]
  by_cases hk : k' = k
  · rw [if_pos hk, if_pos hk.symm, hk, h, Option.map_some]
  · rw [if_neg hk, if_neg (Ne.symm hk)]

/-- Two tables that show the same under a key still do after changes that are seen alike. -/
theorem map_get?_modify_eq {ν' α : Type} {t : Table κ ν} {t' : Table κ ν'} {see : ν → α}
    {see' : ν' → α} {f : ν → ν} {f' : ν' → ν'} (g : α → α) (hf : ∀ v, see (f v) = g (see v))
    (hf' : ∀ v, see' (f' v) = g (see' v)) {k k' : κ}
    (h : (t.get? k').map see = (t'.get? k').map see') :
    ((t.modify k f).get? k').map see = ((t'.modify k f').get? k').map see' := by
  rw [get?_modify, get?_modify]
  split
  · have hchanged : see ∘ f = g ∘ see := funext hf
    have hchanged' : see' ∘ f' = g ∘ see' := funext hf'
    rw [Option.map_map, Option.map_map, hchanged, hchanged', ← Option.map_map, ← Option.map_map, h]
  · exact h

/-- A change under a key that is not there changes nothing. -/
theorem modify_of_not_contains {t : Table κ ν} {k : κ} (h : t.contains k = false) (f : ν → ν) :
    t.modify k f = t := by
  have hk : t.get? k = none := by simpa [contains] using h
  apply ext_get?
  intro k'
  rw [get?_modify]
  split
  · rename_i heq
    rw [heq, hk, Option.map_none]
  · rfl

/-! ### Values under their own keys -/

/-- Every value is stored under its own key. -/
def Keyed (key : ν → κ) (t : Table κ ν) : Prop :=
  ∀ k v, t.get? k = some v → key v = k

namespace Keyed

variable {key : ν → κ} {t : Table κ ν}

theorem empty : (Table.empty : Table κ ν).Keyed key := by
  intro k v h
  rw [get?_empty] at h
  cases h

/-- A value is found under its own key. -/
theorem get?_of_mem (h : t.Keyed key) {v : ν} (hv : v ∈ t.values) : t.get? (key v) = some v := by
  obtain ⟨k, hk⟩ := mem_values_iff.1 hv
  rw [h k v hk, hk]

/-- **The own keys of the values are the keys of the table.** -/
theorem map_values (h : t.Keyed key) : t.values.map key = t.keys := by
  rw [values, keys, List.map_map]
  refine List.map_congr_left ?_
  intro e he
  exact h e.1 e.2 (get?_eq_some_iff.2 he)

/-- No value occurs twice. -/
theorem nodup_values (h : t.Keyed key) : t.values.Nodup := by
  refine List.Nodup.of_map key ?_
  rw [h.map_values]
  exact t.nodup_keys

theorem insert (h : t.Keyed key) {k : κ} {v : ν} (hv : key v = k) : (t.insert k v).Keyed key := by
  intro k' v' hget
  rw [get?_insert] at hget
  by_cases hk : k = k'
  · rw [if_pos hk, Option.some_inj] at hget
    rw [← hget, hv, hk]
  · rw [if_neg hk] at hget
    exact h k' v' hget

theorem filter (h : t.Keyed key) (keep : κ → ν → Bool) : (t.filter keep).Keyed key := by
  intro k v hget
  rw [get?_filter, Option.filter_eq_some_iff] at hget
  exact h k v hget.1

theorem modify (h : t.Keyed key) {f : ν → ν} (hf : ∀ v, key (f v) = key v) (k : κ) :
    (t.modify k f).Keyed key := by
  intro k' v' hget
  rw [get?_modify] at hget
  by_cases hk : k' = k
  · rw [if_pos hk, Option.map_eq_some_iff] at hget
    obtain ⟨v, hv, rfl⟩ := hget
    rw [hf v, h k' v hv]
  · rw [if_neg hk] at hget
    exact h k' v' hget

end Keyed

/-! ### Entries up to their order -/

omit [DecidableEq κ] in
/-- No entry occurs twice. -/
theorem nodup_entries (t : Table κ ν) : t.entries.Nodup :=
  t.nodup_keys.of_map

/-- An insertion puts the new value beside the entries under the other keys. -/
theorem perm_insert (t : Table κ ν) (k : κ) (v : ν) :
    (t.insert k v).entries.Perm ((k, v) :: (t.erase k).entries) := by
  have hfresh : (k, v) ∉ (t.erase k).entries := by
    intro hmem
    rw [← get?_eq_some_iff, get?_erase_self] at hmem
    cases hmem
  refine (List.perm_ext_iff_of_nodup (nodup_entries _)
    (List.nodup_cons.2 ⟨hfresh, nodup_entries _⟩)).2 ?_
  rintro ⟨k', v'⟩
  rw [List.mem_cons, ← get?_eq_some_iff, ← get?_eq_some_iff, get?_insert, get?_erase, Prod.mk.injEq]
  by_cases hk : k' = k
  · simp [hk, eq_comm]
  · simp [hk, Ne.symm hk]

/-! ### New last entries -/

omit [DecidableEq κ] in
/-- A key after all others is put at the end. -/
theorem entries_insert_last {t : Table κ ν} {k : κ} (h : ∀ e ∈ t.entries, Key.before e.1 k = true)
    (v : ν) : (t.insert k v).entries = t.entries ++ [(k, v)] := by
  have all (list : List (κ × ν)) (h : ∀ e ∈ list, Key.before e.1 k = true) :
      insertEntry k v list = list ++ [(k, v)] := by
    induction list with
    | nil => rfl
    | cons e rest ih =>
      obtain ⟨k', v'⟩ := e
      have hbefore : Key.before k' k = true := h (k', v') (List.mem_cons_self ..)
      have hafter : ¬ Key.before k k' = true := fun hk =>
        ne_of_before (Key.trans hbefore hk) rfl
      rw [insertEntry, if_neg hafter, if_pos hbefore, List.cons_append,
        ih fun e he => h e (List.mem_cons_of_mem _ he)]
  exact all t.entries h

/-- Puts values into a table, one after the other. -/
def insertAll (t : Table κ ν) (list : List (κ × ν)) : Table κ ν :=
  list.foldl (fun t e => t.insert e.1 e.2) t

omit [DecidableEq κ] in
/-- Keys in order, after all others, are put at the end. -/
theorem entries_insertAll {t : Table κ ν} {list : List (κ × ν)}
    (hlist : list.Pairwise fun a b => Key.before a.1 b.1 = true)
    (h : ∀ e ∈ t.entries, ∀ e' ∈ list, Key.before e.1 e'.1 = true) :
    (t.insertAll list).entries = t.entries ++ list := by
  induction list generalizing t with
  | nil => exact (List.append_nil _).symm
  | cons a rest ih =>
    obtain ⟨ha, hrest⟩ := List.pairwise_cons.1 hlist
    have hlast := entries_insert_last (fun e he => h e he a (List.mem_cons_self ..)) a.2
    have hnext : ((t.insert a.1 a.2).insertAll rest).entries = (t.insert a.1 a.2).entries ++ rest := by
      refine ih hrest fun e he e' he' => ?_
      rw [hlast] at he
      rcases List.mem_append.1 he with he | he
      · exact h e he e' (List.mem_cons_of_mem _ he')
      · rw [List.mem_singleton.1 he]
        exact ha e' he'
    show ((t.insert a.1 a.2).insertAll rest).entries = _
    rw [hnext, hlast, List.append_assoc]
    rfl

/-! ### Tables of lists -/

theorem get?_foldl_insert (list : List (κ × ν)) (t : Table κ ν) (k : κ) :
    (list.foldl (fun t e => t.insert e.1 e.2) t).get? k =
      ((list.reverse.find? fun e => e.1 = k).map Prod.snd).or (t.get? k) := by
  induction list generalizing t with
  | nil => rfl
  | cons e rest ih =>
    rw [List.foldl_cons, ih, get?_insert, List.reverse_cons, List.find?_append]
    cases hrest : rest.reverse.find? fun e => decide (e.1 = k) with
    | some last => rfl
    | none =>
      by_cases hk : e.1 = k
      · simp [hk]
      · simp [hk]

/-- Looking a key up in the table of a list finds the last entry under it. -/
theorem get?_ofList (list : List (κ × ν)) (k : κ) :
    (ofList list).get? k = (list.reverse.find? fun e => e.1 = k).map Prod.snd := by
  rw [ofList, get?_foldl_insert, get?_empty, Option.or_none]

/-- In the table of a list without repeated keys exactly the entries of the list are found. -/
theorem get?_ofList_eq_some_iff {list : List (κ × ν)} (distinct : (list.map Prod.fst).Nodup)
    {k : κ} {v : ν} : (ofList list).get? k = some v ↔ (k, v) ∈ list := by
  rw [get?_ofList, Option.map_eq_some_iff]
  constructor
  · rintro ⟨e, hfind, rfl⟩
    have hk : e.1 = k := by simpa using List.find?_some hfind
    subst hk
    exact List.mem_reverse.1 (List.mem_of_find?_eq_some hfind)
  · intro hmem
    cases hfind : list.reverse.find? fun e => decide (e.1 = k) with
    | none =>
      have := List.find?_eq_none.1 hfind (k, v) (List.mem_reverse.2 hmem)
      simp at this
    | some e =>
      have hk : e.1 = k := by simpa using List.find?_some hfind
      have he : e ∈ list := List.mem_reverse.1 (List.mem_of_find?_eq_some hfind)
      have heq : e = (k, v) := List.inj_on_of_nodup_map distinct he hmem hk
      exact ⟨e, rfl, by rw [heq]⟩

end Objectives.Table
