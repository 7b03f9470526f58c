/- # Reading JSON

A text is read as one JSON value with nothing but blanks around it.

Main definitions:

* `Json.Reader` — the readers for the parts of a value; each gives what it has read and the
  characters after it;
* `Json.maxDepth` — how many brackets and braces may be open at once;
* `Json.ofText?` — the value of a text.

Every reader that can meet itself again counts down a number, which begins above the length of the
text and so is never used up.  Brackets and braces may stand inside each other up to a depth.
-/

import Objectives.Json.Basic
import Objectives.Number.Decimal
import Objectives.Text.Integer

set_option relaxedAutoImplicit false
set_option autoImplicit false

namespace Objectives.Json

namespace Reader

/-- Leaves out blanks. -/
def blanks (text : List Char) : List Char :=
  text.dropWhile fun c => c == ' ' || c == '\n' || c == '\r' || c == '\t'

/-- Reads a given word. -/
def word : List Char → List Char → Option (List Char)
  | [], rest => some rest
  | c :: cs, d :: rest => if c = d then word cs rest else none
  | _ :: _, [] => none

/-! ### Strings -/

/-- Reads a number of four digits in base 16. -/
def fourHex : List Char → Option (Nat × List Char)
  | a :: b :: c :: d :: rest => do
    let a ← Text.hexDigit? a
    let b ← Text.hexDigit? b
    let c ← Text.hexDigit? c
    let d ← Text.hexDigit? d
    return (((a * 16 + b) * 16 + c) * 16 + d, rest)
  | _ => none

/-- Reads what follows a backslash and a `u`: the code of a character, or the two halves of one. -/
def codePoint (text : List Char) : Option (Char × List Char) := do
  let (high, rest) ← fourHex text
  if 0xD800 ≤ high ∧ high < 0xDC00 then
    let rest ← word ['\\', 'u'] rest
    let (low, rest) ← fourHex rest
    if 0xDC00 ≤ low ∧ low < 0xE000 then
      return (Char.ofNat (0x10000 + (high - 0xD800) * 0x400 + (low - 0xDC00)), rest)
    else none
  else if 0xDC00 ≤ high ∧ high < 0xE000 then none
  else return (Char.ofNat high, rest)

/-- Reads what follows a backslash. -/
def escaped : List Char → Option (Char × List Char)
  | 'u' :: rest => codePoint rest
  | 'n' :: rest => some ('\n', rest)
  | 'r' :: rest => some ('\r', rest)
  | 't' :: rest => some ('\t', rest)
  | 'b' :: rest => some (Char.ofNat 8, rest)
  | 'f' :: rest => some (Char.ofNat 12, rest)
  | c :: rest => if c = '"' ∨ c = '\\' ∨ c = '/' then some (c, rest) else none
  | [] => none

/-- Reads the characters up to the closing quote; those before them are given in reverse. -/
def string : Nat → List Char → List Char → Option (String × List Char)
  | left + 1, before, c :: rest =>
    if c = '"' then some (String.ofList before.reverse, rest)
    else if c = '\\' then
      match escaped rest with
      | some (c, rest) => string left (c :: before) rest
      | none => none
    else if c.toNat < 32 then none
    else string left (c :: before) rest
  | _, _, _ => none

/-! ### Numbers -/

/-- Reads the digits after a point, if there is one; a point has to be followed by a digit. -/
def fraction : List Char → Option (List Char × List Char)
  | '.' :: rest => if (Decimal.digits rest).1.isEmpty then none else some (Decimal.digits rest)
  | text => some ([], text)

/-- Whether a whole number is kept as such: it has to fit a signed or an unsigned word of 64 bits,
and a negative zero is a double. -/
def isWhole (negative : Bool) (size : Nat) : Bool :=
  if negative then 0 < size && size ≤ 0x8000000000000000 else size < 0x10000000000000000

/-- Reads a number.  It is whole if it has neither a point nor an exponent and fits a word; any
other has to be in the range of doubles. -/
def number (text : List Char) : Option (Json × List Char) := do
  let (negative, rest) := match text with
    | '-' :: rest => (true, rest)
    | rest => (false, rest)
  let (whole, rest) := Decimal.digits rest
  if whole.isEmpty ∨ (whole.head? = some '0' ∧ 1 < whole.length) then none
  let (part, rest) ← fraction rest
  let (power, rest) ← Decimal.exponent rest
  let size := Decimal.value whole
  if part.isEmpty ∧ power.isNone ∧ isWhole negative size then
    return (int (if negative then -(size : Int) else size), rest)
  else
    let x := Decimal.nearest negative (whole ++ part) (power.getD 0 - part.length)
    if x.isFinite then return (real x, rest) else none

/-! ### Values -/

mutual

/-- Reads a value after blanks.  The second number is that of the brackets and braces that may still
be opened. -/
def value : Nat → Nat → List Char → Option (Json × List Char)
  | 0, _, _ => none
  | left + 1, room, text =>
    match blanks text, room with
    | '"' :: rest, _ => (string rest.length.succ [] rest).map fun (s, rest) => (str s, rest)
    | '[' :: _, 0 => none
    | '[' :: rest, room + 1 =>
      match blanks rest with
      | ']' :: rest => some (arr [], rest)
      | rest => (items left room rest).map fun (js, rest) => (arr js, rest)
    | '{' :: _, 0 => none
    | '{' :: rest, room + 1 =>
      match blanks rest with
      | '}' :: rest => some (obj [], rest)
      | rest => (members left room rest).map fun (fs, rest) => (obj fs, rest)
    | 't' :: rest, _ => (word ['r', 'u', 'e'] rest).map fun rest => (bool true, rest)
    | 'f' :: rest, _ => (word ['a', 'l', 's', 'e'] rest).map fun rest => (bool false, rest)
    | 'n' :: rest, _ => (word ['u', 'l', 'l'] rest).map fun rest => (null, rest)
    | rest, _ => number rest

/-- Reads values up to the closing bracket. -/
def items : Nat → Nat → List Char → Option (List Json × List Char)
  | 0, _, _ => none
  | left + 1, room, text =>
    match value left room text with
    | none => none
    | some (j, rest) =>
      match blanks rest with
      | ',' :: rest => (items left room rest).map fun (js, rest) => (j :: js, rest)
      | ']' :: rest => some ([j], rest)
      | _ => none

/-- Reads fields up to the closing brace. -/
def members : Nat → Nat → List Char → Option (List (String × Json) × List Char)
  | 0, _, _ => none
  | left + 1, room, text =>
    match blanks text with
    | '"' :: rest =>
      match string rest.length.succ [] rest with
      | none => none
      | some (name, rest) =>
        match blanks rest with
        | ':' :: rest =>
          match value left room rest with
          | none => none
          | some (j, rest) =>
            match blanks rest with
            | ',' :: rest => (members left room rest).map fun (fs, rest) => ((name, j) :: fs, rest)
            | '}' :: rest => some ([(name, j)], rest)
            | _ => none
        | _ => none
    | _ => none

end

end Reader

/-- How many brackets and braces may be open at once. -/
def maxDepth : Nat := 127

/-- The value of a text. -/
def ofText? (text : String) : Option Json :=
  let chars := text.toList
  match Reader.value (2 * chars.length + 2) maxDepth chars with
  | some (j, rest) => if (Reader.blanks rest).isEmpty then some j else none
  | none => none

end Objectives.Json
