/- # A tree of values

Values are kept in records, by name, and in lists, by place.  A path leads from the whole tree to
one value.  Putting a value at the end of a path makes what the path needs: a value on the way gives
way to a record or a list, and a list grows until it has the place.

Main definitions:

* `Tree` — a value, a record or a list;
* `Tree.Step`, `Tree.path?` — the steps of a path, and the path that a text spells;
* `Tree.put` — the tree with a value at the end of a path;
* `Tree.entry?` — what a record has by name and a list by place.

Main results:

* `Tree.lookup_changeEntry` — a changed entry is the changed one;
* `Tree.lookup_changeEntry_of_ne` — and no other entry changes.
-/

import Objectives.Settings.Scalar

set_option relaxedAutoImplicit false
set_option autoImplicit false

namespace Objectives

/-- A value, a record or a list; or nothing, where a list has grown past a place. -/
inductive Tree
  | missing
  | value (s : Scalar)
  | record (fields : List (String × Tree))
  /-- So many items; the items at all other places are missing. -/
  | list (length : Nat) (items : List (Nat × Tree))

namespace Tree

/-! ### Paths -/

/-- A step into a record or into a list.  A place below zero counts from the end. -/
inductive Step
  | field (name : String)
  | place (n : Int)
  deriving DecidableEq, Repr

/-- Whether a character can stand in the name of a field. -/
def isNameCharacter (c : Char) : Bool :=
  c.isAlphanum || c == ' ' || c == '_' || c == '-'

/-- The place between two brackets: digits with at most a minus sign, and blanks around them. -/
def place? (text : List Char) : Option Step :=
  let isBlank := fun c => c == ' ' || c == '\t'
  let inner := ((text.dropWhile isBlank).reverse.dropWhile isBlank).reverse
  if inner.head? = some '+' then none
  else (Text.readSigned inner).toOption.map .place

/-- A place with the bracket after it. -/
def closedPlace? (text : String) : Option Step :=
  match text.toList.getLast? with
  | some ']' => place? text.toList.dropLast
  | _ => none

/-- The steps of a part of a path: the name of a field, and places in brackets. -/
def part? (text : String) : Option (List Step) :=
  match text.splitOn "[" with
  | [] => none
  | name :: places =>
    if name.isEmpty || !name.all isNameCharacter then none
    else (places.mapM closedPlace?).map (.field name :: ·)

/-- The path that a text spells: parts with a point between two, or with two underscores. -/
def path? (text : String) : Option (List Step) :=
  (((text.splitOn "__").flatMap (·.splitOn ".")).mapM part?).map List.flatten

/-! ### Change -/

/-- The fields of a record; nothing else has any. -/
def fields : Tree → List (String × Tree)
  | record fields => fields
  | _ => []

/-- Changes the entry of a key, which is missing if there is none. -/
def changeEntry {κ : Type} [BEq κ] (key : κ) (change : Tree → Tree) :
    List (κ × Tree) → List (κ × Tree)
  | [] => [(key, change missing)]
  | (other, tree) :: rest =>
    if key == other then (other, change tree) :: rest
    else (other, tree) :: changeEntry key change rest

/-- Changes the item at a place of a list.  A list without the place grows at its end; or at its
start, if the place counts from the end. -/
def changeItem (n : Int) (change : Tree → Tree) (length : Nat) (items : List (Nat × Tree)) : Tree :=
  match n with
  | .ofNat i => list (max length (i + 1)) (changeEntry i change items)
  | .negSucc i =>
    if i < length then list length (changeEntry (length - (i + 1)) change items)
    else
      let moved := items.map fun item => (item.1 + (i + 1 - length), item.2)
      list (i + 1) (changeEntry 0 change moved)

/-- The tree with a value at the end of a path. -/
def put (value : Scalar) : List Step → Tree → Tree
  | [], _ => .value value
  | .field name :: rest, tree => record (changeEntry name (put value rest) tree.fields)
  | .place n :: rest, list length items => changeItem n (put value rest) length items
  | .place n :: rest, _ => changeItem n (put value rest) 0 []

/-! ### Look-up -/

/-- What a record has by name, and a list by place. -/
def entry? (name : String) (place : Nat) : Tree → Option Tree
  | record fields => fields.lookup name
  | list length items =>
    if place < length then some ((items.lookup place).getD missing) else none
  | _ => none

/-- A changed entry is the changed one. -/
theorem lookup_changeEntry {κ : Type} [BEq κ] [LawfulBEq κ] (key : κ) (change : Tree → Tree)
    (entries : List (κ × Tree)) :
    (changeEntry key change entries).lookup key
      = some (change ((entries.lookup key).getD missing)) := by
  induction entries with
  | nil => simp [changeEntry]
  | cons entry rest ih =>
    obtain ⟨other, tree⟩ := entry
    by_cases h : (key == other) = true
    · simp [changeEntry, List.lookup_cons, h]
    · simp [changeEntry, List.lookup_cons, h, ih]

/-- No other entry changes. -/
theorem lookup_changeEntry_of_ne {κ : Type} [BEq κ] [LawfulBEq κ] {key asked : κ}
    (h : asked ≠ key) (change : Tree → Tree) (entries : List (κ × Tree)) :
    (changeEntry key change entries).lookup asked = entries.lookup asked := by
  have differs : (asked == key) = false := by simpa using h
  induction entries with
  | nil => simp [changeEntry, List.lookup_cons, differs]
  | cons entry rest ih =>
    obtain ⟨other, tree⟩ := entry
    by_cases e : (key == other) = true
    · simp only [beq_iff_eq] at e
      subst e
      simp [changeEntry, List.lookup_cons, differs]
    · simp only [changeEntry, e, Bool.false_eq_true, if_false, List.lookup_cons, ih]

end Tree

end Objectives
