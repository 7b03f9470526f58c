/- # Stable sorting

What a stable sort by a key comes to, whatever the algorithm: the elements of each key stand as they
stood.  This and the order of the keys determine the list.

Main definitions:

* `StablySorted` — a list is the stable sort of another by a key.

Main results:

* `stablySorted_sortBy` — the sort is stable;
* `eq_of_ordered_of_filter`, `StablySorted.unique` — the stable sort of a list is unique;
* `filter_eq_of_perm` — where keys are distinct, the order of the given list makes no difference.
-/

import Mathlib.Data.List.Perm.Basic
import Mathlib.Order.Lattice
import Objectives.Collection.Sorting

set_option relaxedAutoImplicit false
set_option autoImplicit false

namespace Objectives

variable {α β : Type} [LinearOrder β] {key : α → β}

/-- A list holds the elements of another in the order of a key, and those with one key as they stood. -/
structure StablySorted (key : α → β) (given sorted : List α) : Prop where
  perm : sorted.Perm given
  ordered : sorted.Pairwise fun a b => key a ≤ key b
  stable : ∀ k, (sorted.filter fun a => key a = k) = given.filter fun a => key a = k

theorem stablySorted_sortBy (key : α → β) (given : List α) :
    StablySorted key given (sortBy (fun a b => decide (key a ≤ key b)) given) where
  perm := sortBy_perm _ _
  ordered := by
    refine (sortBy_pairwise ?_ ?_ given).imp fun hab => of_decide_eq_true hab
    · intro a b c hab hbc
      exact decide_eq_true ((of_decide_eq_true hab).trans (of_decide_eq_true hbc))
    · intro a b
      exact (le_total (key a) (key b)).imp decide_eq_true decide_eq_true
  stable k := by
    refine filter_sortBy (fun a b ha hb => ?_) given
    exact decide_eq_true ((of_decide_eq_true ha).trans (of_decide_eq_true hb).symm).le

/-- Lists that hold the same elements of every key hold the same elements. -/
theorem mem_iff_of_filter {a b : List α}
    (h : ∀ k, (a.filter fun x => key x = k) = b.filter fun x => key x = k) (x : α) :
    x ∈ a ↔ x ∈ b := by
  have hx := congrArg (x ∈ ·) (h (key x))
  simpa [List.mem_filter] using hx

/-- Lists in the order of a key that hold the same elements of every key are the same. -/
theorem eq_of_ordered_of_filter {a b : List α} (ha : a.Pairwise fun x y => key x ≤ key y)
    (hb : b.Pairwise fun x y => key x ≤ key y)
    (h : ∀ k, (a.filter fun x => key x = k) = b.filter fun x => key x = k) : a = b := by
  induction a generalizing b with
  | nil =>
    cases b with
    | nil => rfl
    | cons y b => exact absurd ((mem_iff_of_filter h y).2 (List.mem_cons_self ..)) List.not_mem_nil
  | cons x a ih =>
    cases b with
    | nil => exact absurd ((mem_iff_of_filter h x).1 (List.mem_cons_self ..)) List.not_mem_nil
    | cons y b =>
      obtain ⟨hx, ha'⟩ := List.pairwise_cons.1 ha
      obtain ⟨hy, hb'⟩ := List.pairwise_cons.1 hb
      -- the two first elements have the least key, so they are the first of that key
      have hkey : key x = key y := by
        refine le_antisymm ?_ ?_
        · rcases List.mem_cons.1 ((mem_iff_of_filter h y).2 (List.mem_cons_self ..)) with heq | hmem
          · exact heq ▸ le_rfl
          · exact hx y hmem
        · rcases List.mem_cons.1 ((mem_iff_of_filter h x).1 (List.mem_cons_self ..)) with heq | hmem
          · exact heq ▸ le_rfl
          · exact hy x hmem
      have hfirst := h (key x)
      rw [List.filter_cons_of_pos (by simp), List.filter_cons_of_pos (by simp [hkey]),
        List.cons.injEq] at hfirst
      obtain rfl : x = y := hfirst.1
      have htail : ∀ k, (a.filter fun z => key z = k) = b.filter fun z => key z = k := by
        intro k
        have hk := h k
        by_cases hxk : key x = k
        · rw [List.filter_cons_of_pos (by simp [hxk]), List.filter_cons_of_pos (by simp [hxk])] at hk
          exact List.tail_eq_of_cons_eq hk
        · rwa [List.filter_cons_of_neg (by simp [hxk]), List.filter_cons_of_neg (by simp [hxk])] at hk
      rw [ih ha' hb' htail]

/-- The stable sort of a list is unique. -/
theorem StablySorted.unique {given a b : List α} (ha : StablySorted key given a)
    (hb : StablySorted key given b) : a = b :=
  eq_of_ordered_of_filter ha.ordered hb.ordered fun k => (ha.stable k).trans (hb.stable k).symm

/-- If elements have distinct keys, those with one key do not depend on the order of the list. -/
theorem filter_eq_of_perm {a b : List α} (perm : a.Perm b) (distinct : (b.map key).Nodup) (k : β) :
    (a.filter fun x => key x = k) = b.filter fun x => key x = k := by
  -- no two elements with the key are apart from each other, so a list has one of them at most
  have alone : ∀ {l : List α}, (l.map key).Nodup →
      (l.filter fun x => key x = k).Pairwise fun _ _ => False := by
    intro l hl
    rw [List.pairwise_filter]
    refine (List.pairwise_map.1 hl).imp fun hne hx hy => hne ?_
    rw [of_decide_eq_true hx, of_decide_eq_true hy]
  exact List.Perm.eq_of_pairwise (fun _ _ _ _ h _ => h.elim)
    (alone ((perm.map key).nodup_iff.2 distinct)) (alone distinct) (perm.filter _)

end Objectives
