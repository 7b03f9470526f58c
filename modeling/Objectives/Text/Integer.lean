/- # Decimal integers in text

An identifier given as text is a run of decimal digits with at most one sign before it, and has to
fit a signed word of 64 bits.  The text is read from left to right, and the first thing that is
wrong decides the cause.

Main definitions:

* `Text.IntegerFault` — why a text is no integer;
* `Text.readInteger` — the integer a text spells;
* `Text.readIdentifier` — the same after trimming;
* `Text.readNatural` — the natural number a text spells, up to a greatest one.
-/

import Objectives.Text.Blank

namespace Objectives.Text

/-- Why a text does not spell an integer of 64 bits. -/
inductive IntegerFault
  | empty
  | invalidDigit
  | tooLarge
  | tooSmall
  deriving DecidableEq, Repr

namespace IntegerFault

/-- The sentence shown for a fault. -/
def message : IntegerFault → String
  | .empty => "cannot parse integer from empty string"
  | .invalidDigit => "invalid digit found in string"
  | .tooLarge => "number too large to fit in target type"
  | .tooSmall => "number too small to fit in target type"

/-- The short name of a fault. -/
def name : IntegerFault → String
  | .empty => "Empty"
  | .invalidDigit => "InvalidDigit"
  | .tooLarge => "PosOverflow"
  | .tooSmall => "NegOverflow"

end IntegerFault

/-- The least value of a signed word of 64 bits. -/
def minInt64 : Int := -9223372036854775808

/-- The greatest value of a signed word of 64 bits. -/
def maxInt64 : Int := 9223372036854775807

/-- Whether a value fits a signed word of 64 bits. -/
def fitsInt64 (value : Int) : Bool :=
  minInt64 ≤ value && value ≤ maxInt64

/-- The value of a decimal digit; only the ten ASCII digits count. -/
def digit? (c : Char) : Option Nat :=
  if c.isDigit then some (c.toNat - '0'.toNat) else none

/-- The value of a digit in base 16. -/
def hexDigit? (c : Char) : Option Nat :=
  if c.isDigit then some (c.toNat - '0'.toNat)
  else if 'a' ≤ c ∧ c ≤ 'f' then some (c.toNat - 'a'.toNat + 10)
  else if 'A' ≤ c ∧ c ≤ 'F' then some (c.toNat - 'A'.toNat + 10)
  else none

/-- Reads the digits that follow `value`, each with the sign of the whole number, and stops at the
first character that is no digit or that takes the value out of range. -/
def readDigits (negative : Bool) : Int → List Char → Except IntegerFault Int
  | value, [] => .ok value
  | value, c :: rest =>
    match digit? c with
    | none => .error .invalidDigit
    | some d =>
      let next := if negative then value * 10 - d else value * 10 + d
      if fitsInt64 next then readDigits negative next rest
      else .error (if negative then .tooSmall else .tooLarge)

/-- The integer spelled by a list of characters: one sign at most, then at least one digit. -/
def readSigned : List Char → Except IntegerFault Int
  | [] => .error .empty
  | ['+'] => .error .invalidDigit
  | ['-'] => .error .invalidDigit
  | '+' :: rest => readDigits false 0 rest
  | '-' :: rest => readDigits true 0 rest
  | digits => readDigits false 0 digits

/-- The integer a text spells. -/
def readInteger (text : String) : Except IntegerFault Int :=
  readSigned text.toList

/-- Reads the digits of a natural number that follow `value`, and stops at the first character that
is no digit or that takes the value above the greatest. -/
def readNaturalDigits (greatest : Nat) : Nat → List Char → Except IntegerFault Nat
  | value, [] => .ok value
  | value, c :: rest =>
    match digit? c with
    | none => .error .invalidDigit
    | some d =>
      let next := value * 10 + d
      if next ≤ greatest then readNaturalDigits greatest next rest else .error .tooLarge

/-- The natural number that a text spells, up to a greatest one: a plus sign at most, then at least
one digit. -/
def readNatural (greatest : Nat) (text : String) : Except IntegerFault Nat :=
  match text.toList with
  | [] => .error .empty
  | ['+'] => .error .invalidDigit
  | '+' :: rest => readNaturalDigits greatest 0 rest
  | digits => readNaturalDigits greatest 0 digits

/-- The identifier a text spells; blanks around it do not count. -/
def readIdentifier (text : String) : Except IntegerFault Int :=
  readInteger (trim text)

end Objectives.Text
