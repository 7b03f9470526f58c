/- # JSON values

The form in which records are exchanged.

Main definitions:

* `Json` — a value;
* `Json.text`, `Json.pretty` — a value in one line, and spread over lines.

A finite double is written as a string, `0x` and the sixteen digits of its bits, so that nothing of
it is lost, and any other double as null; whole numbers are written as numbers.
-/

import Objectives.Number.Double

set_option relaxedAutoImplicit false
set_option autoImplicit false

namespace Objectives

/-- A JSON value.  The fields of an object stay in the order in which they were written. -/
inductive Json
  | null
  | bool (b : Bool)
  | int (n : Int)
  | real (x : Double)
  | str (s : String)
  | arr (items : List Json)
  | obj (fields : List (String × Json))

namespace Json

/-! ### Building values -/

/-- A value that may be missing. -/
def option {α : Type} (write : α → Json) : Option α → Json
  | some a => write a
  | none => null

/-- A list of values. -/
def list {α : Type} (write : α → Json) (items : List α) : Json := arr (items.map write)

/-- A natural number. -/
def nat (n : Nat) : Json := int n

/-- The value of a field.  Of two fields of one name the later counts, and a value that is no object
has no fields. -/
def field? : Json → String → Option Json
  | obj fields, name => (fields.reverse.find? fun f => f.1 == name).map Prod.snd
  | _, _ => none

/-- The object with more fields behind its own. -/
def extend : Json → List (String × Json) → Json
  | obj fields, more => obj (fields ++ more)
  | other, _ => other

/-! ### Writing values -/

/-- The digits of a character's code in base 16, four of them. -/
def unicodeEscape (c : Char) : String :=
  "\\u" ++ String.ofList ([3, 2, 1, 0].map fun place =>
    Nat.digitChar (c.toNat / Nat.pow 16 place % 16))

/-- A character inside quotes. -/
def escape (c : Char) : String :=
  if c = '"' then "\\\""
  else if c = '\\' then "\\\\"
  else if c = '\n' then "\\n"
  else if c = '\r' then "\\r"
  else if c = '\t' then "\\t"
  else if c.toNat = 8 then "\\b"
  else if c.toNat = 12 then "\\f"
  else if c.toNat < 32 then unicodeEscape c
  else c.toString

/-- A text in quotes. -/
def quote (s : String) : String :=
  "\"" ++ String.join (s.toList.map escape) ++ "\""

/-- A value without parts, in its one spelling. -/
def atom : Json → String
  | null => "null"
  | bool b => if b then "true" else "false"
  | int n => toString n
  | real x => if x.isFinite then quote ("0x" ++ x.hexDigits) else "null"
  | str s => quote s
  | arr _ => "[]"
  | obj _ => "\x7b\x7d"

mutual

/-- The value in one line. -/
def text : Json → String
  | arr items => "[" ++ itemsText items ++ "]"
  | obj fields => "\x7b" ++ fieldsText fields ++ "\x7d"
  | other => atom other

/-- Values with commas between them. -/
def itemsText : List Json → String
  | [] => ""
  | [item] => item.text
  | item :: rest => item.text ++ "," ++ itemsText rest

/-- Fields with commas between them. -/
def fieldsText : List (String × Json) → String
  | [] => ""
  | [(name, value)] => quote name ++ ":" ++ value.text
  | (name, value) :: rest => quote name ++ ":" ++ value.text ++ "," ++ fieldsText rest

end

/-- The start of a line inside so many brackets. -/
def newLine (level : Nat) : String := "\n" ++ String.ofList (List.replicate (2 * level) ' ')

mutual

/-- The value with a line for each part, inside so many brackets. -/
def prettyAt (level : Nat) : Json → String
  | arr (item :: rest) =>
    "[" ++ newLine (level + 1) ++ prettyItems (level + 1) (item :: rest) ++ newLine level ++ "]"
  | obj (field :: rest) =>
    "\x7b" ++ newLine (level + 1) ++ prettyFields (level + 1) (field :: rest) ++ newLine level
      ++ "\x7d"
  | other => atom other

/-- Values with a comma and a new line between them. -/
def prettyItems (level : Nat) : List Json → String
  | [] => ""
  | [item] => item.prettyAt level
  | item :: rest => item.prettyAt level ++ "," ++ newLine level ++ prettyItems level rest

/-- Fields with a comma and a new line between them. -/
def prettyFields (level : Nat) : List (String × Json) → String
  | [] => ""
  | [(name, value)] => quote name ++ ": " ++ value.prettyAt level
  | (name, value) :: rest =>
    quote name ++ ": " ++ value.prettyAt level ++ "," ++ newLine level ++ prettyFields level rest

end

/-- The value spread over lines. -/
def pretty (j : Json) : String := j.prettyAt 0

end Json

end Objectives
