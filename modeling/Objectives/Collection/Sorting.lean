/- # Sorting

A stable sort by a comparison, written so that a closed list can be sorted by evaluation.

Main definitions:

* `insertBy`, `sortBy` — insertion into a sorted list, and the sort made of it;
* `maxBy`, `minBy` — the greatest and the least element of a list;
* `distinctBy` — a list without later repetitions of a key.

Main results:

* `sortBy_perm` — the sorted list holds the same elements, equally often;
* `sortBy_pairwise` — its elements stand in order, if the comparison is a total preorder;
* `filter_sortBy` — the sort is stable;
* `minBy_spec`, `maxBy_spec` — the least element is not after any other; the greatest in the opposite
  order.
-/

set_option relaxedAutoImplicit false
set_option autoImplicit false

namespace Objectives

variable {α β : Type}

/-! ### Sorting -/

/-- Puts an element in front of the first that it may precede. -/
def insertBy (le : α → α → Bool) (x : α) : List α → List α
  | [] => [x]
  | y :: rest => if le x y then x :: y :: rest else y :: insertBy le x rest

/-- The elements in order; those that compare equal stay as they stood. -/
def sortBy (le : α → α → Bool) (list : List α) : List α :=
  list.foldr (insertBy le) []

@[simp] theorem sortBy_nil (le : α → α → Bool) : sortBy le [] = [] := rfl

@[simp] theorem sortBy_cons (le : α → α → Bool) (x : α) (list : List α) :
    sortBy le (x :: list) = insertBy le x (sortBy le list) := rfl

/-- Insertion adds the element and nothing else. -/
theorem insertBy_perm (le : α → α → Bool) (x : α) (list : List α) :
    (insertBy le x list).Perm (x :: list) := by
  induction list with
  | nil => exact List.Perm.refl _
  | cons y rest ih =>
    unfold insertBy
    split
    · exact List.Perm.refl _
    · exact (ih.cons y).trans (List.Perm.swap x y rest)

/-- The sorted list holds the same elements, equally often. -/
theorem sortBy_perm (le : α → α → Bool) (list : List α) : (sortBy le list).Perm list := by
  induction list with
  | nil => exact List.Perm.refl _
  | cons x rest ih => exact (insertBy_perm le x _).trans (ih.cons x)

@[simp] theorem mem_sortBy {le : α → α → Bool} {x : α} {list : List α} :
    x ∈ sortBy le list ↔ x ∈ list :=
  (sortBy_perm le list).mem_iff

@[simp] theorem length_sortBy (le : α → α → Bool) (list : List α) :
    (sortBy le list).length = list.length :=
  (sortBy_perm le list).length_eq

/-- Insertion keeps a list in order. -/
theorem insertBy_pairwise {le : α → α → Bool}
    (trans : ∀ a b c, le a b = true → le b c = true → le a c = true)
    (total : ∀ a b, le a b = true ∨ le b a = true) (x : α) {list : List α}
    (h : list.Pairwise fun a b => le a b = true) :
    (insertBy le x list).Pairwise fun a b => le a b = true := by
  induction list with
  | nil => exact List.pairwise_singleton _ _
  | cons y rest ih =>
    obtain ⟨hy, hrest⟩ := List.pairwise_cons.1 h
    unfold insertBy
    split
    · rename_i hxy
      refine List.pairwise_cons.2 ⟨fun z hz => ?_, h⟩
      rcases List.mem_cons.1 hz with rfl | hz
      · exact hxy
      · exact trans _ _ _ hxy (hy z hz)
    · rename_i hxy
      refine List.pairwise_cons.2 ⟨fun z hz => ?_, ih hrest⟩
      rcases List.mem_cons.1 ((insertBy_perm le x rest).mem_iff.1 hz) with rfl | hz
      · exact (total _ _).resolve_left hxy
      · exact hy z hz

/-- The sorted list is in order. -/
theorem sortBy_pairwise {le : α → α → Bool}
    (trans : ∀ a b c, le a b = true → le b c = true → le a c = true)
    (total : ∀ a b, le a b = true ∨ le b a = true) (list : List α) :
    (sortBy le list).Pairwise fun a b => le a b = true := by
  induction list with
  | nil => exact List.Pairwise.nil
  | cons x rest ih => exact insertBy_pairwise trans total x ih

/-- Insertion puts an element in front of those that compare equal. -/
theorem filter_insertBy {le : α → α → Bool} {p : α → Bool}
    (h : ∀ a b, p a = true → p b = true → le a b = true) (x : α) (list : List α) :
    (insertBy le x list).filter p = (x :: list).filter p := by
  induction list with
  | nil => rfl
  | cons y rest ih =>
    unfold insertBy
    split
    · rfl
    · rename_i hxy
      rw [List.filter_cons, ih]
      cases hx : p x with
      | false => simp [List.filter_cons, hx]
      | true =>
        have hy : p y = false := Bool.eq_false_iff.2 fun hy => hxy (h x y hx hy)
        simp [hx, hy]

/-- Elements that compare equal stay as they stood. -/
theorem filter_sortBy {le : α → α → Bool} {p : α → Bool}
    (h : ∀ a b, p a = true → p b = true → le a b = true) (list : List α) :
    (sortBy le list).filter p = list.filter p := by
  induction list with
  | nil => rfl
  | cons x rest ih =>
    rw [sortBy_cons, filter_insertBy h, List.filter_cons, ih, ← List.filter_cons]

/-! ### The greatest and the least -/

/-- The element that is left when two elements are replaced by one of them, from the left. -/
def reduce (choose : α → α → α) : List α → Option α
  | [] => none
  | x :: rest => some (rest.foldl choose x)

/-- The greatest element; of several, the last. -/
def maxBy (cmp : α → α → Ordering) : List α → Option α :=
  reduce fun x y => if cmp x y = .gt then x else y

/-- The least element; of several, the first. -/
def minBy (cmp : α → α → Ordering) : List α → Option α :=
  reduce fun x y => if cmp x y = .gt then y else x

@[simp] theorem reduce_eq_none_iff {choose : α → α → α} {list : List α} :
    reduce choose list = none ↔ list = [] := by
  cases list <;> simp [reduce]

section Least

variable {le : α → α → Bool} (trans : ∀ a b c, le a b = true → le b c = true → le a c = true)
  (total : ∀ a b, le a b = true ∨ le b a = true) {list : List α} {s : α}
include trans total

/-- If each choice is one of the two and is not after the other, the element that is left is not after
any. -/
theorem reduce_spec {choose : α → α → α}
    (hchoose : ∀ x y, choose x y = x ∧ le x y = true ∨ choose x y = y ∧ le y x = true)
    (h : reduce choose list = some s) : s ∈ list ∧ ∀ t ∈ list, le s t = true := by
  have refl (x : α) : le x x = true := (total x x).elim id id
  have hleft (x y : α) : le (choose x y) x = true := by
    rcases hchoose x y with ⟨hxy, hle⟩ | ⟨hxy, hle⟩ <;> rw [hxy]
    · exact refl x
    · exact hle
  have hright (x y : α) : le (choose x y) y = true := by
    rcases hchoose x y with ⟨hxy, hle⟩ | ⟨hxy, hle⟩ <;> rw [hxy]
    · exact hle
    · exact refl y
  cases list with
  | nil => cases h
  | cons x rest =>
    obtain rfl : rest.foldl choose x = s := Option.some.inj h
    clear h
    induction rest generalizing x with
    | nil =>
      refine ⟨List.mem_cons_self .., fun t ht => ?_⟩
      rw [List.mem_singleton.1 ht]
      exact refl x
    | cons y rest ih =>
      obtain ⟨hmem, hall⟩ := ih (choose x y)
      have hchosen := hall _ (List.mem_cons_self ..)
      constructor
      · rcases List.mem_cons.1 hmem with hs | hs
        · rw [List.foldl_cons, hs]
          rcases hchoose x y with ⟨hxy, -⟩ | ⟨hxy, -⟩ <;> rw [hxy] <;> simp
        · exact List.mem_cons_of_mem _ (List.mem_cons_of_mem _ hs)
      · intro t ht
        rcases List.mem_cons.1 ht with rfl | ht
        · exact trans _ _ _ hchosen (hleft t y)
        · rcases List.mem_cons.1 ht with rfl | ht
          · exact trans _ _ _ hchosen (hright x t)
          · exact hall t (List.mem_cons_of_mem _ ht)

/-- The least element is one of the list and is not after any. -/
theorem minBy_spec {cmp : α → α → Ordering} (hcmp : ∀ x y, cmp x y = .gt ↔ le x y = false)
    (h : minBy cmp list = some s) : s ∈ list ∧ ∀ t ∈ list, le s t = true := by
  refine reduce_spec trans total (fun x y => ?_) h
  split <;> rename_i hxy <;> rw [hcmp] at hxy
  · exact .inr ⟨rfl, (total x y).resolve_left (by simp [hxy])⟩
  · exact .inl ⟨rfl, by simpa using hxy⟩

/-- The greatest element, in the opposite order. -/
theorem maxBy_spec {cmp : α → α → Ordering} (hcmp : ∀ x y, cmp x y = .gt ↔ le y x = false)
    (h : maxBy cmp list = some s) : s ∈ list ∧ ∀ t ∈ list, le s t = true := by
  refine reduce_spec trans total (fun x y => ?_) h
  split <;> rename_i hxy <;> rw [hcmp] at hxy
  · exact .inl ⟨rfl, (total x y).resolve_right (by simp [hxy])⟩
  · exact .inr ⟨rfl, by simpa using hxy⟩

/-- The first of the sorted list is one of the list and is not after any. -/
theorem head?_sortBy_spec (h : (sortBy le list).head? = some s) :
    s ∈ list ∧ ∀ t ∈ list, le s t = true := by
  obtain ⟨rest, hsorted⟩ := List.head?_eq_some_iff.1 h
  have hmem (t : α) : t ∈ list ↔ t ∈ s :: rest := by
    rw [← hsorted, mem_sortBy]
  have hordered := sortBy_pairwise trans total list
  rw [hsorted, List.pairwise_cons] at hordered
  refine ⟨(hmem s).2 (List.mem_cons_self ..), fun t ht => ?_⟩
  rcases List.mem_cons.1 ((hmem t).1 ht) with rfl | ht
  · exact (total t t).elim id id
  · exact hordered.1 t ht

end Least

theorem head?_sortBy_eq_none_iff {le : α → α → Bool} {list : List α} :
    (sortBy le list).head? = none ↔ list = [] := by
  rw [List.head?_eq_none_iff, ← List.length_eq_zero_iff, length_sortBy, List.length_eq_zero_iff]

/-! ### Leaving out repetitions -/

/-- The elements whose key occurs neither in `seen` nor earlier in the list. -/
def distinctFrom [BEq β] (key : α → β) (seen : List β) : List α → List α
  | [] => []
  | x :: rest =>
    if seen.contains (key x) then distinctFrom key seen rest
    else x :: distinctFrom key (key x :: seen) rest

/-- The list without later repetitions of a key. -/
def distinctBy [BEq β] (key : α → β) (list : List α) : List α :=
  distinctFrom key [] list

end Objectives
