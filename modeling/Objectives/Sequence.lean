/- # Moving among siblings

Goals of one team in one period, key results of one goal, and all periods are kept in order by an
integer key.  A move exchanges the key of an item with that of its neighbour.

Main definitions:

* `Direction`, `SequencedItem`, `MoveOutcome` — a move and its result;
* `nearestSibling` — the neighbour on one side.

Main results:

* `nearestSibling_spec` — the neighbour is the nearest of the siblings that lie strictly on the side
  that was asked for;
* `nearestSibling_eq_none_iff` — there is none exactly if no sibling lies on that side.
-/

import Objectives.Collection.Sorting
import Objectives.Identifier
import Objectives.Vocabulary

set_option relaxedAutoImplicit false
set_option autoImplicit false

namespace Objectives

/-- The direction of a move. -/
inductive Direction
  | up
  | down
  deriving DecidableEq, Repr, Inhabited

namespace Direction

/-- The word for a direction. -/
def name : Direction → String
  | up => "up"
  | down => "down"

instance : Vocabulary Direction where
  all := [up, down]
  name := name
  field := "direction"
  noun := "direction"

end Direction

/-- An item that has siblings. -/
inductive SequencedItem
  /-- A goal, moved in the list of a team: that of the owner, unless another team is named. -/
  | goal (id : GoalId) (asTeam : Option TeamId)
  | keyResult (id : KeyResultId)
  | period (id : PeriodId)
  deriving DecidableEq, Repr

namespace SequencedItem

/-- The identifier of the item. -/
def id : SequencedItem → Int
  | goal id _ => id
  | keyResult id => id
  | period id => id

/-- The word for the kind of item. -/
def kind : SequencedItem → String
  | goal .. => "goal"
  | keyResult _ => "key_result"
  | period _ => "period"

end SequencedItem

/-- What a move did. -/
inductive MoveOutcome
  /-- The item and its neighbour have exchanged their keys. -/
  | swapped (neighbor : Int)
  /-- The item is the first or the last. -/
  | atBoundary
  /-- The team that moved the goal does not own it. -/
  | notOwner
  deriving DecidableEq, Repr

namespace MoveOutcome

/-- Whether anything has changed. -/
def changed : MoveOutcome → Bool
  | swapped _ => true
  | _ => false

end MoveOutcome

/-! ### The neighbour -/

/-- A sibling: its identifier and its key. -/
abbrev Sibling := Int × Int

/-- Siblings by key; of two with one key, the one with the smaller identifier comes last. -/
def keyThenFalling (a b : Sibling) : Ordering := (compare a.2 b.2).then (compare b.1 a.1)

/-- Siblings by key; of two with one key, the one with the smaller identifier comes first. -/
def keyThenRising (a b : Sibling) : Ordering := (compare a.2 b.2).then (compare a.1 b.1)

/-- The nearest sibling strictly on one side of a key. -/
def nearestSibling (siblings : List Sibling) (key : Int) : Direction → Option Sibling
  | .up => maxBy keyThenFalling (siblings.filter fun s => s.2 < key)
  | .down => minBy keyThenRising (siblings.filter fun s => key < s.2)

/-- The first sibling is at least as near as the second, seen from a key on the other side of both
in that direction; of two with one key the smaller identifier is nearer. -/
def nearer (direction : Direction) (a b : Sibling) : Bool :=
  match direction with
  | .up => b.2 < a.2 || (a.2 == b.2 && a.1 ≤ b.1)
  | .down => a.2 < b.2 || (a.2 == b.2 && a.1 ≤ b.1)

/-- Whether a sibling lies strictly on the side of a key that a direction points to. -/
def onSide (direction : Direction) (key : Int) (s : Sibling) : Bool :=
  match direction with
  | .up => s.2 < key
  | .down => key < s.2

section Nearest

variable {siblings : List Sibling} {key : Int} {direction : Direction} {s : Sibling}

theorem nearer_trans (direction : Direction) (a b c : Sibling) (hab : nearer direction a b = true)
    (hbc : nearer direction b c = true) : nearer direction a c = true := by
  cases direction <;> grind [nearer]

theorem nearer_total (direction : Direction) (a b : Sibling) :
    nearer direction a b = true ∨ nearer direction b a = true := by
  cases direction <;> grind [nearer]

/-- Two siblings that are as near as each other are one. -/
theorem nearer_antisymm {a b : Sibling} (hab : nearer direction a b = true)
    (hba : nearer direction b a = true) : a = b := by
  obtain ⟨i, o⟩ := a
  obtain ⟨j, o'⟩ := b
  cases direction <;> grind [nearer]

theorem keyThenFalling_eq_gt_iff {a b : Sibling} :
    keyThenFalling a b = .gt ↔ nearer .up b a = false := by
  simp only [keyThenFalling, nearer, Ordering.then_eq_gt, compare, compareOfLessAndEq]
  grind

theorem keyThenRising_eq_gt_iff {a b : Sibling} :
    keyThenRising a b = .gt ↔ nearer .down a b = false := by
  simp only [keyThenRising, nearer, Ordering.then_eq_gt, compare, compareOfLessAndEq]
  grind

/-- No sibling is found exactly if none lies on the side that was asked for. -/
theorem nearestSibling_eq_none_iff :
    nearestSibling siblings key direction = none ↔ ∀ t ∈ siblings, onSide direction key t = false := by
  cases direction <;> simp [nearestSibling, maxBy, minBy, onSide]

/-- **The neighbour is the nearest of the siblings that lie strictly on the side that was asked for.** -/
theorem nearestSibling_spec (h : nearestSibling siblings key direction = some s) :
    s ∈ siblings.filter (onSide direction key) ∧
      ∀ t ∈ siblings.filter (onSide direction key), nearer direction s t = true := by
  cases direction with
  | up =>
    exact maxBy_spec (nearer_trans .up) (nearer_total .up) (fun _ _ => keyThenFalling_eq_gt_iff) h
  | down =>
    exact minBy_spec (nearer_trans .down) (nearer_total .down) (fun _ _ => keyThenRising_eq_gt_iff) h

/-- There is one neighbour at most. -/
theorem nearestSibling_eq_some_iff : nearestSibling siblings key direction = some s ↔
    s ∈ siblings.filter (onSide direction key) ∧
      ∀ t ∈ siblings.filter (onSide direction key), nearer direction s t = true := by
  refine ⟨nearestSibling_spec, fun ⟨hs, hleast⟩ => ?_⟩
  cases h : nearestSibling siblings key direction with
  | none =>
    obtain ⟨hmem, hside⟩ := List.mem_filter.1 hs
    rw [nearestSibling_eq_none_iff.1 h s hmem] at hside
    cases hside
  | some s' =>
    obtain ⟨hs', hleast'⟩ := nearestSibling_spec h
    rw [nearer_antisymm (hleast' s hs) (hleast s' hs')]

/-- The neighbour is one of the siblings. -/
theorem nearestSibling_mem (h : nearestSibling siblings key direction = some s) : s ∈ siblings :=
  (List.mem_filter.1 (nearestSibling_spec h).1).1

/-- The neighbour lies strictly on the side that was asked for. -/
theorem nearestSibling_side (h : nearestSibling siblings key direction = some s) :
    onSide direction key s = true :=
  (List.mem_filter.1 (nearestSibling_spec h).1).2

end Nearest

end Objectives
