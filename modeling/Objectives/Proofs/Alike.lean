/- # Tables alike

Two stores number their records each in its own way.  What they hold is compared entry by entry, along
a pairing of the identifiers that keeps their order; then looking up, putting in, taking out and sorting
go the same way on both sides.

Main definitions:

* `Pairing` — an order-preserving pairing of identifiers;
* `Pairing.extend` — the pairing with the next identifiers of both sides;
* `Key.Monotone` — a pairing of keys that keeps their order;
* `Table.Alike` — tables whose entries are related one by one;
* `Table.Corresponding` — identifiers under which two tables hold the same record or none.

Main results:

* `Table.Alike.get?`, `Table.Alike.insert`, `Table.Alike.filter` — the operations keep tables alike;
* `sortBy_alike`, `sortBy_eq_of_perm` — lists that are alike are sorted alike, and the sort does not
  depend on where the elements stood.
-/

import Mathlib.Data.List.Forall2
import Mathlib.Data.Option.Basic
import Objectives.Collection.Sorting
import Objectives.Proofs.Table

set_option relaxedAutoImplicit false
set_option autoImplicit false

namespace Objectives

/-! ### Pairings of identifiers -/

/-- A pairing of identifiers that keeps their order. -/
structure Pairing where
  Pairs : Int → Int → Prop
  mono : ∀ {a a' b b' : Int}, Pairs a a' → Pairs b b' → (a < b ↔ a' < b')

namespace Pairing

variable {p q r : Pairing}

/-- No identifiers are paired. -/
def empty : Pairing := ⟨fun _ _ => False, False.elim⟩

/-- Paired identifiers are the same on one side if they are on the other. -/
theorem eq_iff (p : Pairing) {a a' b b' : Int} (ha : p.Pairs a a') (hb : p.Pairs b b') :
    a = b ↔ a' = b' := by
  have hab := p.mono ha hb
  have hba := p.mono hb ha
  omega

/-- The pairs of one pairing are among those of another. -/
def Le (p q : Pairing) : Prop := ∀ a a', p.Pairs a a' → q.Pairs a a'

theorem Le.refl : p.Le p := fun _ _ => id

theorem Le.trans (h : p.Le q) (g : q.Le r) : p.Le r := fun a a' hpair => g a a' (h a a' hpair)

/-- The paired identifiers reach up to two bounds. -/
def Below (p : Pairing) (bound bound' : Int) : Prop :=
  ∀ a a', p.Pairs a a' → a ≤ bound ∧ a' ≤ bound'

theorem Below.empty {bound bound' : Int} : Pairing.empty.Below bound bound' := fun _ _ => False.elim

theorem Below.mono {bound bound' top top' : Int} (h : p.Below bound bound') (hb : bound ≤ top)
    (hb' : bound' ≤ top') : p.Below top top' :=
  fun a a' hpair => ⟨Int.le_trans (h a a' hpair).1 hb, Int.le_trans (h a a' hpair).2 hb'⟩

section Extend

variable {bound bound' : Int} (h : p.Below bound bound') (n : Nat)

/-- The pairing with the next `n` identifiers above the bounds, in their order. -/
def extend : Pairing where
  Pairs a a' := p.Pairs a a' ∨ ∃ i : Nat, i < n ∧ a = bound + 1 + i ∧ a' = bound' + 1 + i
  mono := by
    rintro a a' b b' (ha | ⟨i, -, rfl, rfl⟩) (hb | ⟨j, -, rfl, rfl⟩)
    · exact p.mono ha hb
    · have := h _ _ ha
      omega
    · have := h _ _ hb
      omega
    · omega

theorem le_extend : p.Le (extend h n) := fun _ _ => .inl

theorem extend_pairs {i : Nat} (hi : i < n) : (extend h n).Pairs (bound + 1 + i) (bound' + 1 + i) :=
  .inr ⟨i, hi, rfl, rfl⟩

theorem extend_next : (extend h 1).Pairs (bound + 1) (bound' + 1) :=
  .inr ⟨0, by omega, by omega, by omega⟩

theorem extend_below : (extend h n).Below (bound + n) (bound' + n) := by
  rintro a a' (ha | ⟨i, hi, rfl, rfl⟩)
  · have := h _ _ ha
    omega
  · omega

end Extend

end Pairing

/-! ### Lists -/

section Lists

variable {α β γ ε : Type} {R : α → β → Prop}

/-- What related elements have in common is the same along the lists. -/
theorem map_eq_of_alike {f : α → γ} {g : β → γ} {l : List α} {l' : List β} (h : List.Forall₂ R l l')
    (hfg : ∀ a b, R a b → f a = g b) : l.map f = l'.map g := by
  induction h with
  | nil => rfl
  | cons hab _ ih => rw [List.map_cons, List.map_cons, hfg _ _ hab, ih]

/-- Every element has one beside it. -/
theorem exists_right_of_alike {l : List α} {l' : List β} (h : List.Forall₂ R l l') {a : α}
    (ha : a ∈ l) : ∃ b ∈ l', R a b := by
  induction h with
  | nil => cases ha
  | @cons a' b _ _ hab _ ih =>
    rcases List.mem_cons.1 ha with rfl | ha
    · exact ⟨b, List.mem_cons_self .., hab⟩
    · obtain ⟨b', hmem, hab'⟩ := ih ha
      exact ⟨b', List.mem_cons_of_mem _ hmem, hab'⟩

/-- Lists that are alike are sorted alike. -/
theorem sortBy_alike {r : α → α → Bool} {s : β → β → Bool}
    (hrs : ∀ {a a' b b'}, R a a' → R b b' → r a b = s a' b') {l : List α} {l' : List β}
    (h : List.Forall₂ R l l') : List.Forall₂ R (sortBy r l) (sortBy s l') := by
  have insert {x : α} {x' : β} (hx : R x x') {l : List α} {l' : List β} (h : List.Forall₂ R l l') :
      List.Forall₂ R (insertBy r x l) (insertBy s x' l') := by
    induction h with
    | nil => exact .cons hx .nil
    | cons hy hrest ih =>
      unfold insertBy
      rw [hrs hx hy]
      split
      · exact .cons hx (.cons hy hrest)
      · exact .cons hy ih
  induction h with
  | nil => exact .nil
  | cons hx _ ih => exact insert hx ih

/-- A list that is in order is left as it is by the sort. -/
theorem sortBy_eq_self {le : α → α → Bool} {l : List α} (h : l.Pairwise fun a b => le a b = true) :
    sortBy le l = l := by
  induction h with
  | nil => rfl
  | @cons a rest ha hrest ih =>
    rw [sortBy_cons, ih]
    cases rest with
    | nil => rfl
    | cons b rest => rw [insertBy, if_pos (ha b (List.mem_cons_self ..))]

/-- The sort does not depend on where the elements stood, if no two of them compare equal. -/
theorem sortBy_eq_of_perm {le : α → α → Bool}
    (trans : ∀ a b c, le a b = true → le b c = true → le a c = true)
    (total : ∀ a b, le a b = true ∨ le b a = true) {l l' : List α}
    (antisymm : ∀ a ∈ l, ∀ b ∈ l, le a b = true → le b a = true → a = b) (h : l.Perm l') :
    sortBy le l = sortBy le l' := by
  have hperm := (sortBy_perm le l).trans (h.trans (sortBy_perm le l').symm)
  have hanti : ∀ a b, a ∈ sortBy le l → b ∈ sortBy le l' → le a b = true → le b a = true → a = b :=
    fun a b ha hb => antisymm a (mem_sortBy.1 ha) b (h.mem_iff.2 (mem_sortBy.1 hb))
  exact hperm.eq_of_pairwise hanti (sortBy_pairwise trans total l) (sortBy_pairwise trans total l')

/-- Lists that are alike are read alike, if each element is. -/
theorem mapM_alike {S : α → γ → Prop} {f : β → Except ε γ} {l : List α} {l' : List β}
    (h : List.Forall₂ R l l') (hf : ∀ a b, R a b → ∃ c, f b = .ok c ∧ S a c) :
    ∃ cs, l'.mapM f = .ok cs ∧ List.Forall₂ S l cs := by
  induction h with
  | nil => exact ⟨[], rfl, .nil⟩
  | @cons a b l l' hab _ ih =>
    obtain ⟨c, hc, hac⟩ := hf a b hab
    obtain ⟨cs, hcs, hrest⟩ := ih
    refine ⟨c :: cs, ?_, .cons hac hrest⟩
    rw [List.mapM_cons, hc]
    show (l'.mapM f).bind _ = _
    rw [hcs]
    rfl

end Lists

/-! ### Tables -/

/-- The pairing of keys keeps their order. -/
def Key.Monotone {κ κ' : Type} [Key κ] [Key κ'] (K : κ → κ' → Prop) : Prop :=
  ∀ {a a' b b'}, K a a' → K b b' → Key.before a b = Key.before a' b'

theorem Pairing.monotone (p : Pairing) : Key.Monotone p.Pairs :=
  fun ha hb => decide_eq_decide.2 (p.mono ha hb)

theorem Key.Monotone.eq {κ : Type} [Key κ] : Key.Monotone (Eq : κ → κ → Prop) := by
  rintro a _ b _ rfl rfl
  rfl

/-- Pairs of identifiers paired by their first parts, with the second parts the same. -/
theorem Pairing.monotone_fst (p : Pairing) :
    Key.Monotone fun (k k' : Int × Int) => p.Pairs k.1 k'.1 ∧ k.2 = k'.2 := by
  rintro ⟨a, c⟩ ⟨a', c'⟩ ⟨b, d⟩ ⟨b', d'⟩ ⟨ha, rfl⟩ ⟨hb, rfl⟩
  have hbefore := p.monotone ha hb
  have hbefore' := p.monotone hb ha
  show (Key.before a b || !Key.before b a && Key.before c d) = _
  rw [hbefore, hbefore']
  rfl

namespace Table

variable {κ κ' ν ν' : Type} [Key κ] [Key κ']

/-- The entries of the tables are related one by one. -/
def Alike (E : κ × ν → κ' × ν' → Prop) (t : Table κ ν) (t' : Table κ' ν') : Prop :=
  List.Forall₂ E t.entries t'.entries

/-- The values that a test accepts are those of a table. -/
theorem filter_values (t : Table κ ν) (keep : ν → Bool) :
    t.values.filter keep = (t.filter fun _ v => keep v).values :=
  List.filter_map

namespace Alike

variable {E E' : κ × ν → κ' × ν' → Prop} {K : κ → κ' → Prop} {t : Table κ ν} {t' : Table κ' ν'}

theorem empty : Alike E (Table.empty : Table κ ν) (Table.empty : Table κ' ν') := .nil

theorem mono (h : Alike E t t') (hE : ∀ {e e'}, E e e' → E' e e') : Alike E' t t' :=
  List.Forall₂.imp (fun _ _ he => hE he) h

/-- Every entry has one beside it. -/
theorem exists_right (h : Alike E t t') {e : κ × ν} (he : e ∈ t.entries) :
    ∃ e' ∈ t'.entries, E e e' :=
  exists_right_of_alike h he

/-- The related entries are those of the tables. -/
theorem mem (h : Alike E t t') :
    Alike (fun e e' => E e e' ∧ e ∈ t.entries ∧ e' ∈ t'.entries) t t' := by
  have all {l : List (κ × ν)} {l' : List (κ' × ν')} (h : List.Forall₂ E l l') :
      List.Forall₂ (fun e e' => E e e' ∧ e ∈ l ∧ e' ∈ l') l l' := by
    induction h with
    | nil => exact .nil
    | cons hab _ ih =>
      refine .cons ⟨hab, List.mem_cons_self .., List.mem_cons_self ..⟩ (ih.imp fun _ _ he => ?_)
      exact ⟨he.1, List.mem_cons_of_mem _ he.2.1, List.mem_cons_of_mem _ he.2.2⟩
  exact all h

theorem filter (h : Alike E t t') {p : κ → ν → Bool} {q : κ' → ν' → Bool}
    (hpq : ∀ {e e'}, E e e' → p e.1 e.2 = q e'.1 e'.2) :
    Alike E (t.filter p) (t'.filter q) := by
  have all {l : List (κ × ν)} {l' : List (κ' × ν')} (h : List.Forall₂ E l l') :
      List.Forall₂ E (l.filter fun e => p e.1 e.2) (l'.filter fun e => q e.1 e.2) := by
    induction h with
    | nil => exact .nil
    | @cons a b _ _ hab _ ih =>
      rw [List.filter_cons, List.filter_cons, hpq hab]
      split
      · exact .cons hab ih
      · exact ih
  exact all h

/-- Values beside the entries that they are related to. -/
theorem values {R : ν → κ' × ν' → Prop} (h : Alike E t t') (hR : ∀ {e e'}, E e e' → R e.2 e') :
    List.Forall₂ R t.values t'.entries :=
  List.forall₂_map_left_iff.2 (h.imp fun _ _ he => hR he)

/-- The entries with another key than the new one have to be alike; the new one takes the place of the
one that has its key. -/
theorem insert (hK : Key.Monotone K) {k : κ} {k' : κ'} {v : ν} {v' : ν'}
    (h : Alike (fun e e' => K e.1 e'.1 ∧ (e'.1 ≠ k' → E e e')) t t') (hk : K k k')
    (he : E (k, v) (k', v')) : Alike E (t.insert k v) (t'.insert k' v') := by
  have after {l : List (κ × ν)} {l' : List (κ' × ν')}
      (h : List.Forall₂ (fun e e' => K e.1 e'.1 ∧ (e'.1 ≠ k' → E e e')) l l')
      (hl : ∀ e ∈ l', Key.before k' e.1 = true) : List.Forall₂ E l l' := by
    induction h with
    | nil => exact .nil
    | @cons a b l l' hab _ ih =>
      refine .cons (hab.2 ?_) (ih fun e he => hl e (List.mem_cons_of_mem _ he))
      exact (ne_of_before (hl b (List.mem_cons_self ..))).symm
  have all {l : List (κ × ν)} {l' : List (κ' × ν')}
      (h : List.Forall₂ (fun e e' => K e.1 e'.1 ∧ (e'.1 ≠ k' → E e e')) l l')
      (hl : l'.Pairwise fun a b => Key.before a.1 b.1 = true) :
      List.Forall₂ E (insertEntry k v l) (insertEntry k' v' l') := by
    induction h with
    | nil => exact .cons he .nil
    | @cons a b l l' hab hrest ih =>
      obtain ⟨hb, hrest'⟩ := List.pairwise_cons.1 hl
      obtain ⟨a, w⟩ := a
      obtain ⟨b, w'⟩ := b
      have hbefore := hK hk hab.1
      have hafter := hK hab.1 hk
      unfold insertEntry
      rw [hbefore, hafter]
      split
      · rename_i hkb
        refine .cons he (.cons (hab.2 (ne_of_before hkb).symm) (after hrest fun e he => ?_))
        exact Key.trans hkb (hb e he)
      · rename_i hkb
        split
        · rename_i hbk
          exact .cons (hab.2 (ne_of_before hbk)) (ih hrest')
        · rename_i hbk
          have hkb' : k' = b := Key.connected (by simpa using hkb) (by simpa using hbk)
          subst hkb'
          exact .cons he (after hrest hb)
  exact all h t'.sorted

variable [DecidableEq κ] [DecidableEq κ']

/-- Under keys that stand at the same entries there are related values, or none. -/
theorem get? (h : Alike E t t') {k : κ} {j : κ'}
    (hk : ∀ {e e'}, E e e' → (e.1 = k ↔ e'.1 = j)) :
    Option.Rel (fun v v' => E (k, v) (j, v')) (t.get? k) (t'.get? j) := by
  have all {l : List (κ × ν)} {l' : List (κ' × ν')} (h : List.Forall₂ E l l') :
      Option.Rel (fun v v' => E (k, v) (j, v')) (lookup k l) (lookup j l') := by
    induction h with
    | nil => exact .none
    | @cons a b _ _ hab _ ih =>
      obtain ⟨a, v⟩ := a
      obtain ⟨b, v'⟩ := b
      have hab' := hk hab
      unfold lookup
      by_cases ha : a = k
      · have hb : b = j := hab'.1 ha
        subst ha hb
        rw [if_pos rfl, if_pos rfl]
        exact .some hab
      · rw [if_neg ha, if_neg (mt hab'.2 ha)]
        exact ih
  exact all h

theorem contains (h : Alike E t t') {k : κ} {j : κ'}
    (hk : ∀ {e e'}, E e e' → (e.1 = k ↔ e'.1 = j)) : t.contains k = t'.contains j := by
  have hget := h.get? hk
  unfold Table.contains
  generalize t.get? k = found, t'.get? j = found' at hget
  cases hget <;> rfl

end Alike

/-! ### Records under identifiers -/

section Corresponding

variable {p : Pairing} {s : Table Int ν} {s' : Table Int ν'} {i j : Int}

/-- The identifiers are paired, or there is no record under either of them. -/
def Corresponding (p : Pairing) (s : Table Int ν) (s' : Table Int ν') (i j : Int) : Prop :=
  p.Pairs i j ∨ (s.contains i = false ∧ s'.contains j = false)

theorem Corresponding.of_pairs (h : p.Pairs i j) : Corresponding p s s' i j := .inl h

/-- Under corresponding identifiers there are related records, or none. -/
theorem Alike.get?_corresponding {E : Int × ν → Int × ν' → Prop} (h : Alike E s s')
    (hE : ∀ {e e'}, E e e' → p.Pairs e.1 e'.1) (hij : Corresponding p s s' i j) :
    Option.Rel (fun v v' => E (i, v) (j, v')) (s.get? i) (s'.get? j) := by
  rcases hij with hij | ⟨hi, hj⟩
  · exact h.get? fun he => p.eq_iff (hE he) hij
  · have hi : s.get? i = none := by simpa [Table.contains] using hi
    have hj : s'.get? j = none := by simpa [Table.contains] using hj
    rw [hi, hj]
    exact .none

end Corresponding

end Table

end Objectives
