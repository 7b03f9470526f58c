/- # Reading records from JSON

A record is read from an object, by the names of its fields, or from a list, by their places.  Of an
object the fields that are there are read in the order of their names, and the first that cannot be
read decides why the record cannot; only when all of them can be read does a missing one count.
Fields that a record does not have are left alone.  Of a list the items are read in turn, and there
have to be as many as the record has fields.

Main definitions:

* `Mismatch` — why a value is not what it should be;
* `Flaw`, `Flaw.earlier` — why a field cannot be read, and which of two flaws counts;
* `Fields` — a reader of some fields of a record, which readers of single fields are joined to;
* `Json.record`, `Json.object`, `Json.tagged` — a record made of its fields;
* `Json.integer`, `Json.double`, `Json.word`, … — the values of single fields.

Main results:

* `Flaw.earlier_comm` — which of two flaws counts does not hang on the order of the two;
* `Fields.named_seq`, `Fields.placed_seq` — what two readers that are joined read.
-/

import Objectives.Json.Basic
import Objectives.Percentage
import Objectives.Text.Integer
import Objectives.Vocabulary
import Objectives.Weight

set_option relaxedAutoImplicit false
set_option autoImplicit false

namespace Objectives

/-- Why a JSON value is not what it should be. -/
inductive Mismatch
  /-- A field is not there. -/
  | absent
  /-- The value is of another type, out of the range of its type, or no word of its list. -/
  | shape
  /-- The value has the right type and is refused nevertheless. -/
  | refused (cause : Violation)
  deriving DecidableEq, Repr

/-- A JSON value as a value of a type, or why it is none. -/
abbrev Reading (α : Type) : Type := Except Mismatch α

/-- A record that lacks a field is not of the right type. -/
def Mismatch.ofRecord : Mismatch → Mismatch
  | absent => shape
  | cause => cause

/-! ### Flaws -/

/-- Why a field of an object cannot be read. -/
structure Flaw where
  field : String
  cause : Mismatch
  deriving DecidableEq, Repr

/-- The flaw of two that counts: one of a field that is there, and of two such fields the one whose
name comes first. -/
def Flaw.earlier (a b : Flaw) : Flaw :=
  if a.cause = .absent then b
  else if b.cause = .absent then a
  else if b.field < a.field then b
  else a

/-- Which of two flaws counts does not hang on the order of the two. -/
theorem Flaw.earlier_comm {a b : Flaw} (names : a.field ≠ b.field)
    (there : a.cause ≠ .absent ∨ b.cause ≠ .absent) : a.earlier b = b.earlier a := by
  unfold Flaw.earlier
  by_cases ha : a.cause = .absent
  · have hb : b.cause ≠ .absent := there.resolve_left fun h => h ha
    simp [ha, hb]
  · by_cases hb : b.cause = .absent
    · simp [ha, hb]
    · by_cases h : a.field < b.field
      · simp [ha, hb, h, String.lt_asymm h]
      · have back : b.field < a.field :=
          Decidable.byContradiction fun h' => names (String.le_antisymm h' h)
        simp [ha, hb, h, back]

/-! ### Fields -/

/-- A reader of some fields of a record, in the order in which the record has them. -/
structure Fields (α : Type) where
  /-- From an object, by the names of the fields. -/
  named : Json → Except Flaw α
  /-- From a list, by their places; the rest of the list is left. -/
  placed : List Json → Reading (α × List Json)

namespace Fields

variable {α β : Type}

/-- What two readings of an object give together. -/
def join : Except Flaw (α → β) → Except Flaw α → Except Flaw β
  | .ok f, .ok a => .ok (f a)
  | .ok _, .error flaw => .error flaw
  | .error flaw, .ok _ => .error flaw
  | .error flaw, .error other => .error (flaw.earlier other)

/-- Two readings of a list, one after the other. -/
def follow (first : List Json → Reading ((α → β) × List Json))
    (second : List Json → Reading (α × List Json)) (items : List Json) :
    Reading (β × List Json) :=
  match first items with
  | .error cause => .error cause
  | .ok (f, rest) => (second rest).map fun (a, left) => (f a, left)

instance : Applicative Fields where
  pure a := ⟨fun _ => .ok a, fun items => .ok (a, items)⟩
  seq f a := ⟨fun j => join (f.named j) ((a ()).named j), follow f.placed (a ()).placed⟩

/-- Two readers side by side, of an object. -/
theorem named_seq (f : Fields (α → β)) (a : Fields α) (j : Json) :
    (f <*> a).named j = join (f.named j) (a.named j) := rfl

/-- Two readers side by side, of a list. -/
theorem placed_seq (f : Fields (α → β)) (a : Fields α) (items : List Json) :
    (f <*> a).placed items = follow f.placed a.placed items := rfl

/-- All fields from an object. -/
def ofObject (fields : Fields α) (j : Json) : Reading α :=
  match fields.named j with
  | .ok a => .ok a
  | .error flaw => .error flaw.cause.ofRecord

/-- All fields from a list, which has nothing else. -/
def ofList (fields : Fields α) (items : List Json) : Reading α :=
  match fields.placed items with
  | .ok (a, []) => .ok a
  | .ok (_, _ :: _) => .error .shape
  | .error cause => .error cause.ofRecord

end Fields

namespace Json

variable {α : Type}

/-- The next item of a list. -/
def next (read : Json → Reading α) : List Json → Reading (α × List Json)
  | [] => .error .absent
  | item :: rest => (read item).map (·, rest)

/-- A value of a field, or the flaw of the field. -/
def inField (name : String) : Reading α → Except Flaw α
  | .ok a => .ok a
  | .error cause => .error ⟨name, cause⟩

/-- A value or null. -/
def nullable (read : Json → Reading α) : Json → Reading (Option α)
  | null => .ok none
  | j => (read j).map some

/-- The field of a name. -/
def field (name : String) (read : Json → Reading α) : Fields α where
  named j :=
    match j.field? name with
    | some value => inField name (read value)
    | none => .error ⟨name, .absent⟩
  placed := next read

/-- The field of a name, which may be null, and which an object may leave out. -/
def optionalField (name : String) (read : Json → Reading α) : Fields (Option α) where
  named j :=
    match j.field? name with
    | some value => inField name (nullable read value)
    | none => .ok none
  placed := next (nullable read)

/-- The field of a name, which may be left out; a default stands for it then. -/
def fieldOr (name : String) (read : Json → Reading α) (default : α) : Fields α where
  named j :=
    match j.field? name with
    | some value => inField name (read value)
    | none => .ok default
  placed
    | [] => .ok (default, [])
    | items => next read items

/-- The record of an object's fields. -/
def object (fields : Fields α) : Json → Reading α
  | obj members => fields.ofObject (obj members)
  | _ => .error .shape

/-- The record of the fields of an object or of the items of a list. -/
def record (fields : Fields α) : Json → Reading α
  | obj members => fields.ofObject (obj members)
  | arr items => fields.ofList items
  | _ => .error .shape

/-- A record with a field whose word decides which other fields there are; in a list the word comes
first. -/
def tagged (tag : String) (fields? : String → Option (Fields α)) : Json → Reading α
  | obj members =>
    match (obj members).field? tag with
    | some (str word) =>
      match fields? word with
      | some fields => fields.ofObject (obj members)
      | none => .error .shape
    | _ => .error .shape
  | arr (str word :: items) =>
    match fields? word with
    | some fields => fields.ofList items
    | none => .error .shape
  | _ => .error .shape

/-! ### Values -/

/-- A value that a check lets through. -/
def checked : Except Violation α → Reading α
  | .ok a => .ok a
  | .error v => .error (.refused v)

/-- A truth value. -/
def truth : Json → Reading Bool
  | bool b => .ok b
  | _ => .error .shape

/-- A text. -/
def string : Json → Reading String
  | str s => .ok s
  | _ => .error .shape

/-- A whole number between two bounds. -/
def bounded (low high : Int) : Json → Reading Int
  | int n => if low ≤ n ∧ n ≤ high then .ok n else .error .shape
  | _ => .error .shape

/-- A signed number of 64 bits. -/
def integer : Json → Reading Int := bounded Text.minInt64 Text.maxInt64

/-- A signed number of 32 bits. -/
def integer32 : Json → Reading Int := bounded (-2147483648) 2147483647

/-- An unsigned number of that many bits. -/
def natural (bits : Nat) (j : Json) : Reading Nat :=
  (bounded 0 (Nat.pow 2 bits - 1 : Nat) j).map Int.toNat

/-- A number. -/
def number : Json → Reading Double
  | int n => .ok (Double.ofDecimal (n < 0) n.natAbs 0)
  | real x => .ok x
  | _ => .error .shape

/-- A number, of which the negative zero can be given by its text. -/
def double : Json → Reading Double
  | str s => if s = "-0.0" then .ok .negZero else .error .shape
  | j => number j

/-- A number, an infinity, or what is not a number. -/
def anyDouble : Json → Reading Double
  | str s =>
    if s = "NaN" then .ok .nan
    else if s = "Infinity" then .ok .posInfinity
    else if s = "-Infinity" then .ok .negInfinity
    else double (str s)
  | j => double j

/-- A field with a metric's value.  Only by name can it be given by a text. -/
def metric (name : String) (read : Json → Reading Double) : Fields Double where
  named := (field name read).named
  placed := next number

/-- The values of a list, in order. -/
def elements (read : Json → Reading α) : List Json → Reading (List α)
  | [] => .ok []
  | item :: rest =>
    match read item with
    | .error e => .error e
    | .ok a => (elements read rest).map (a :: ·)

/-- A list of values. -/
def array (read : Json → Reading α) : Json → Reading (List α)
  | arr items => elements read items
  | _ => .error .shape

/-- A list of two values. -/
def pair {β : Type} (readFirst : Json → Reading α) (readSecond : Json → Reading β) :
    Json → Reading (α × β)
  | arr [a, b] =>
    match readFirst a with
    | .error e => .error e
    | .ok a => (readSecond b).map (a, ·)
  | _ => .error .shape

/-- A word of a closed list, which can be given as the name of a field that is null. -/
def word (α : Type) [Vocabulary α] (j : Json) : Reading α :=
  let word? : Option String :=
    match j with
    | str s => some s
    | obj [(s, null)] => some s
    | _ => none
  match word?.bind Vocabulary.find? with
  | some a => .ok a
  | none => .error .shape

/-- A weight. -/
def weight (j : Json) : Reading Weight := (integer j).bind fun n => checked (Weight.ofInt n)

/-- A percentage. -/
def percentage (j : Json) : Reading Percentage :=
  (integer j).bind fun n => checked (Percentage.ofInt n)

end Json

end Objectives
