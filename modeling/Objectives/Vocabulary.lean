/- # Vocabularies

A closed list of words, each the stored name of one value.  A word is read by looking for the value
of that name, and exactly as it is written: blanks and capitals count.

Main definitions:

* `Vocabulary` — the values, their names, and how a refusal speaks of them;
* `Vocabulary.find?`, `Vocabulary.read` — the value of a word.

Main results:

* `Vocabulary.name_of_find?` — the value found for a word has that word as its name.
-/

import Objectives.Violation

set_option relaxedAutoImplicit false
set_option autoImplicit false

namespace Objectives

/-- A closed list of named values. -/
class Vocabulary (α : Type) where
  /-- Every value, in the order in which they are listed. -/
  all : List α
  /-- The stored name. -/
  name : α → String
  /-- The field that such a word is given for. -/
  field : String
  /-- What a refusal calls the word. -/
  noun : String

namespace Vocabulary

variable {α : Type} [Vocabulary α]

/-- The value of that name. -/
def find? (word : String) : Option α :=
  (all : List α).find? fun value => name value == word

/-- The value found for a word has that word as its name. -/
theorem name_of_find? {word : String} {value : α} (h : find? word = some value) :
    name value = word := by
  simpa using List.find?_some h

/-- The value of that name, or the refusal of an unknown word. -/
def read (α : Type) [Vocabulary α] (word : String) : Except Violation α :=
  match find? word with
  | some value => .ok value
  | none => .error (.malformed (field α) s!"unknown {noun α} '{word}'")

end Vocabulary

end Objectives
