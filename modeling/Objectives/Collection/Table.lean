/- # Tables

A table keeps values under distinct keys, in the order of the keys.

Main definitions:

* `Key` — keys, with the strict order in which they are kept;
* `Table` — a list of entries in the order of their keys;
* `Table.get?` — the value under a key, the view that all operations are described by;
* `Table.insert`, `Table.erase`, `Table.filter`, `Table.mapValues` — the operations.

Main results:

* `Table.get?_eq_some_iff` — looking a key up finds exactly the entries;
* `Table.get?_insert`, `Table.get?_erase`, `Table.get?_filter`, `Table.get?_mapValues` — what each
  operation does to the view;
* `Table.ext_get?` — **two tables with one view are one table**.
-/

set_option relaxedAutoImplicit false
set_option autoImplicit false

namespace Objectives

/-! ### Keys -/

/-- Keys with a strict order that is total. -/
class Key (κ : Type) where
  before : κ → κ → Bool
  irrefl : ∀ a, before a a = false
  trans : ∀ {a b c}, before a b = true → before b c = true → before a c = true
  connected : ∀ {a b}, before a b = false → before b a = false → a = b

instance : Key Int where
  before a b := a < b
  irrefl a := by simp
  trans {a b c} := by simp only [decide_eq_true_eq]; omega
  connected {a b} := by simp only [decide_eq_false_iff_not]; omega

/-- Pairs are ordered by the first component, then by the second. -/
instance {κ μ : Type} [Key κ] [Key μ] : Key (κ × μ) where
  before a b := Key.before a.1 b.1 || (!Key.before b.1 a.1 && Key.before a.2 b.2)
  irrefl a := by simp [Key.irrefl]
  trans {a b c} := by
    simp only [Bool.or_eq_true, Bool.and_eq_true, Bool.not_eq_true']
    rintro (h | ⟨h, h₂⟩) (g | ⟨g, g₂⟩)
    · exact .inl (Key.trans h g)
    · cases hbc : Key.before b.1 c.1 with
      | true => exact .inl (Key.trans h hbc)
      | false => exact .inl (Key.connected hbc g ▸ h)
    · cases hab : Key.before a.1 b.1 with
      | true => exact .inl (Key.trans hab g)
      | false => exact .inl (Key.connected hab h ▸ g)
    · cases hab : Key.before a.1 b.1 with
      | true =>
        cases hbc : Key.before b.1 c.1 with
        | true => exact .inl (Key.trans hab hbc)
        | false => exact .inl (Key.connected hbc g ▸ hab)
      | false =>
        rw [Key.connected hab h]
        exact .inr ⟨g, Key.trans h₂ g₂⟩
  connected {a b} := by
    intro h g
    simp only [Bool.or_eq_false_iff] at h g
    have h₁ := Key.connected h.1 g.1
    refine Prod.ext h₁ (Key.connected ?_ ?_)
    · simpa [g.1] using h.2
    · simpa [h.1] using g.2

/-! ### Tables -/

/-- Values under distinct keys, in the order of the keys. -/
structure Table (κ ν : Type) [Key κ] where
  entries : List (κ × ν)
  sorted : entries.Pairwise fun a b => Key.before a.1 b.1 = true

namespace Table

variable {κ ν : Type} [Key κ]

instance [DecidableEq κ] [DecidableEq ν] : DecidableEq (Table κ ν) := fun a b =>
  if h : a.entries = b.entries then
    isTrue (by cases a; cases b; cases h; rfl)
  else isFalse fun g => h (congrArg entries g)

/-- The table with no entries. -/
def empty : Table κ ν := ⟨[], List.Pairwise.nil⟩

/-- The keys, in order. -/
def keys (t : Table κ ν) : List κ := t.entries.map Prod.fst

/-- The values, in the order of their keys. -/
def values (t : Table κ ν) : List ν := t.entries.map Prod.snd

/-- The value of the first entry under a key. -/
def lookup [DecidableEq κ] (k : κ) : List (κ × ν) → Option ν
  | [] => none
  | (k', v) :: rest => if k' = k then some v else lookup k rest

/-- The value under a key. -/
def get? [DecidableEq κ] (t : Table κ ν) (k : κ) : Option ν := lookup k t.entries

/-- Whether there is a value under a key. -/
def contains [DecidableEq κ] (t : Table κ ν) (k : κ) : Bool := (t.get? k).isSome

/-- Puts a value under a key into a list of entries, in place of the one there. -/
def insertEntry (k : κ) (v : ν) : List (κ × ν) → List (κ × ν)
  | [] => [(k, v)]
  | (k', v') :: rest =>
    if Key.before k k' then (k, v) :: (k', v') :: rest
    else if Key.before k' k then (k', v') :: insertEntry k v rest
    else (k, v) :: rest

theorem mem_insertEntry {k : κ} {v : ν} {list : List (κ × ν)} {e : κ × ν}
    (h : e ∈ insertEntry k v list) : e = (k, v) ∨ e ∈ list := by
  induction list with
  | nil => exact .inl (by simpa [insertEntry] using h)
  | cons head rest ih =>
    obtain ⟨k', v'⟩ := head
    unfold insertEntry at h
    split at h
    · exact List.mem_cons.1 h
    · split at h
      · rcases List.mem_cons.1 h with rfl | h
        · exact .inr (List.mem_cons_self ..)
        · exact (ih h).imp_right (List.mem_cons_of_mem _)
      · exact (List.mem_cons.1 h).imp_right (List.mem_cons_of_mem _)

theorem insertEntry_sorted (k : κ) (v : ν) {list : List (κ × ν)}
    (h : list.Pairwise fun a b => Key.before a.1 b.1 = true) :
    (insertEntry k v list).Pairwise fun a b => Key.before a.1 b.1 = true := by
  induction list with
  | nil => exact List.pairwise_singleton _ _
  | cons head rest ih =>
    obtain ⟨k', v'⟩ := head
    obtain ⟨hhead, hrest⟩ := List.pairwise_cons.1 h
    unfold insertEntry
    split
    · rename_i hk
      refine List.pairwise_cons.2 ⟨fun e he => ?_, h⟩
      rcases List.mem_cons.1 he with rfl | he
      · exact hk
      · exact Key.trans hk (hhead e he)
    · rename_i hk
      split
      · rename_i hk'
        refine List.pairwise_cons.2 ⟨fun e he => ?_, ih hrest⟩
        rcases mem_insertEntry he with rfl | he
        · exact hk'
        · exact hhead e he
      · rename_i hk'
        have : k = k' := Key.connected (by simpa using hk) (by simpa using hk')
        subst this
        exact List.pairwise_cons.2 ⟨hhead, hrest⟩

/-- The table with a value under a key, in place of the one there. -/
def insert (t : Table κ ν) (k : κ) (v : ν) : Table κ ν :=
  ⟨insertEntry k v t.entries, insertEntry_sorted k v t.sorted⟩

/-- The entries that a test accepts. -/
def filter (t : Table κ ν) (keep : κ → ν → Bool) : Table κ ν :=
  ⟨t.entries.filter fun e => keep e.1 e.2, t.sorted.filter _⟩

/-- The table without a key. -/
def erase [DecidableEq κ] (t : Table κ ν) (k : κ) : Table κ ν :=
  t.filter fun k' _ => k' ≠ k

/-- The table with every value changed. -/
def mapValues (t : Table κ ν) (f : κ → ν → ν) : Table κ ν :=
  ⟨t.entries.map fun e => (e.1, f e.1 e.2), List.pairwise_map.2 t.sorted⟩

/-- The table with the value under one key changed, if there is one. -/
def modify [DecidableEq κ] (t : Table κ ν) (k : κ) (f : ν → ν) : Table κ ν :=
  t.mapValues fun k' v => if k' = k then f v else v

/-- The table of a list of entries; a later entry takes the place of an earlier one. -/
def ofList (list : List (κ × ν)) : Table κ ν :=
  list.foldl (fun t e => t.insert e.1 e.2) empty

/-! ### The view of a table -/

variable [DecidableEq κ]

omit [DecidableEq κ] in
theorem ne_of_before {a b : κ} (h : Key.before a b = true) : a ≠ b := by
  rintro rfl
  rw [Key.irrefl] at h
  cases h

omit [Key κ] in
theorem mem_of_lookup {k : κ} {v : ν} {list : List (κ × ν)} (h : lookup k list = some v) :
    (k, v) ∈ list := by
  induction list with
  | nil => cases h
  | cons head rest ih =>
    obtain ⟨k', v'⟩ := head
    unfold lookup at h
    split at h
    · rename_i hk
      cases hk
      cases h
      exact List.mem_cons_self ..
    · exact List.mem_cons_of_mem _ (ih h)

theorem lookup_of_mem {k : κ} {v : ν} {list : List (κ × ν)}
    (sorted : list.Pairwise fun a b => Key.before a.1 b.1 = true) (h : (k, v) ∈ list) :
    lookup k list = some v := by
  induction list with
  | nil => cases h
  | cons head rest ih =>
    obtain ⟨k', v'⟩ := head
    obtain ⟨hhead, hrest⟩ := List.pairwise_cons.1 sorted
    unfold lookup
    rcases List.mem_cons.1 h with h | h
    · cases h
      rw [if_pos rfl]
    · rw [if_neg (ne_of_before (hhead _ h)), ih hrest h]

/-- Looking a key up finds exactly the entries. -/
theorem get?_eq_some_iff {t : Table κ ν} {k : κ} {v : ν} :
    t.get? k = some v ↔ (k, v) ∈ t.entries :=
  ⟨mem_of_lookup, lookup_of_mem t.sorted⟩

@[simp] theorem get?_empty (k : κ) : (empty : Table κ ν).get? k = none := rfl

theorem lookup_insertEntry (k k' : κ) (v : ν) (list : List (κ × ν)) :
    lookup k' (insertEntry k v list) = if k = k' then some v else lookup k' list := by
  induction list with
  | nil => rfl
  | cons head rest ih =>
    obtain ⟨k₀, v₀⟩ := head
    unfold insertEntry
    split
    · rfl
    · rename_i hk
      split
      · rename_i hk₀
        simp only [lookup, ih]
        by_cases h : k₀ = k'
        · subst h
          simp [(ne_of_before hk₀).symm]
        · simp [h]
      · rename_i hk₀
        have : k = k₀ := Key.connected (by simpa using hk) (by simpa using hk₀)
        subst this
        by_cases h : k = k' <;> simp [lookup, h]

/-- After an insertion the key has the new value, and the others what they had. -/
theorem get?_insert (t : Table κ ν) (k k' : κ) (v : ν) :
    (t.insert k v).get? k' = if k = k' then some v else t.get? k' :=
  lookup_insertEntry k k' v t.entries

@[simp] theorem get?_insert_self (t : Table κ ν) (k : κ) (v : ν) :
    (t.insert k v).get? k = some v := by
  simp [get?_insert]

theorem get?_insert_of_ne (t : Table κ ν) {k k' : κ} (v : ν) (h : k ≠ k') :
    (t.insert k v).get? k' = t.get? k' := by
  simp [get?_insert, h]

/-- A filter keeps a value under its key if the test accepts it. -/
theorem get?_filter (t : Table κ ν) (keep : κ → ν → Bool) (k : κ) :
    (t.filter keep).get? k = (t.get? k).filter (keep k) := by
  apply Option.ext
  intro v
  simp [get?_eq_some_iff, Option.filter_eq_some_iff, filter]

/-- After an erasure the key has no value, and the others what they had. -/
theorem get?_erase (t : Table κ ν) (k k' : κ) :
    (t.erase k).get? k' = if k' = k then none else t.get? k' := by
  rw [erase, get?_filter]
  by_cases h : k' = k
  · subst h
    cases t.get? k' <;> simp
  · cases t.get? k' <;> simp [h]

@[simp] theorem get?_erase_self (t : Table κ ν) (k : κ) : (t.erase k).get? k = none := by
  simp [get?_erase]

theorem get?_erase_of_ne (t : Table κ ν) {k k' : κ} (h : k' ≠ k) :
    (t.erase k).get? k' = t.get? k' := by
  simp [get?_erase, h]

/-- A change of all values changes the value under each key. -/
theorem get?_mapValues (t : Table κ ν) (f : κ → ν → ν) (k : κ) :
    (t.mapValues f).get? k = (t.get? k).map (f k) := by
  apply Option.ext
  intro v
  simp only [get?_eq_some_iff, Option.map_eq_some_iff, mapValues, List.mem_map, Prod.mk.injEq]
  constructor
  · rintro ⟨⟨k', v'⟩, h, rfl, rfl⟩
    exact ⟨v', h, rfl⟩
  · rintro ⟨v', h, rfl⟩
    exact ⟨(k, v'), h, rfl, rfl⟩

/-- A change under one key leaves the others what they were. -/
theorem get?_modify (t : Table κ ν) (k k' : κ) (f : ν → ν) :
    (t.modify k f).get? k' = if k' = k then (t.get? k').map f else t.get? k' := by
  rw [modify, get?_mapValues]
  by_cases h : k' = k <;> cases t.get? k' <;> simp [h]

/-! ### Equality of tables -/

omit [DecidableEq κ] in
theorem eq_of_mem_iff {a b : List (κ × ν)}
    (ha : a.Pairwise fun x y => Key.before x.1 y.1 = true)
    (hb : b.Pairwise fun x y => Key.before x.1 y.1 = true)
    (h : ∀ e, e ∈ a ↔ e ∈ b) : a = b := by
  induction a generalizing b with
  | nil =>
    cases b with
    | nil => rfl
    | cons y bs => exact absurd ((h y).2 (List.mem_cons_self ..)) (by simp)
  | cons x as ih =>
    cases b with
    | nil => exact absurd ((h x).1 (List.mem_cons_self ..)) (by simp)
    | cons y bs =>
      obtain ⟨hx, has⟩ := List.pairwise_cons.1 ha
      obtain ⟨hy, hbs⟩ := List.pairwise_cons.1 hb
      have hxy : x = y := by
        rcases List.mem_cons.1 ((h x).1 (List.mem_cons_self ..)) with hxy | hxb
        · exact hxy
        · rcases List.mem_cons.1 ((h y).2 (List.mem_cons_self ..)) with hyx | hya
          · exact hyx.symm
          · exact absurd (Key.trans (hx y hya) (hy x hxb)) (by simp [Key.irrefl])
      subst hxy
      refine congrArg (x :: ·) (ih has hbs fun e => ?_)
      constructor
      · intro he
        rcases List.mem_cons.1 ((h e).1 (List.mem_cons_of_mem _ he)) with rfl | he'
        · exact absurd (hx e he) (by simp [Key.irrefl])
        · exact he'
      · intro he
        rcases List.mem_cons.1 ((h e).2 (List.mem_cons_of_mem _ he)) with rfl | he'
        · exact absurd (hy e he) (by simp [Key.irrefl])
        · exact he'

/-- **Two tables with one view are one table.** -/
theorem ext_get? {a b : Table κ ν} (h : ∀ k, a.get? k = b.get? k) : a = b := by
  have : a.entries = b.entries := by
    refine eq_of_mem_iff a.sorted b.sorted fun e => ?_
    obtain ⟨k, v⟩ := e
    rw [← get?_eq_some_iff, ← get?_eq_some_iff, h]
  cases a
  cases b
  cases this
  rfl

/-- Putting back the value that is there changes nothing. -/
theorem insert_get? {t : Table κ ν} {k : κ} {v : ν} (h : t.get? k = some v) :
    t.insert k v = t := by
  apply ext_get?
  intro k'
  rw [get?_insert]
  by_cases hk : k = k'
  · subst hk
    rw [if_pos rfl, h]
  · rw [if_neg hk]

end Table

end Objectives
