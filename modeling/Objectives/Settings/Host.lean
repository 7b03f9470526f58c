/- # Hosts

A host in an address is a name, or a number: four octets with points between them, or up to eight
groups of digits in base 16 with colons between them, where two colons stand for the groups that
are left out.

Main definitions:

* `Host.isFourOctets`, `Host.isEightGroups` — the numbers;
* `Host.isNumber` — either of them;
* `Host.isForbidden` — the characters that no name has.
-/

import Objectives.Text.Integer

set_option relaxedAutoImplicit false
set_option autoImplicit false

namespace Objectives.Host

/-- A number from 0 to 255 without leading zeros. -/
def isOctet (text : String) : Bool :=
  let ds := text.toList
  ds.all Char.isDigit && 1 ≤ ds.length && ds.length ≤ 3 &&
    (ds.length == 1 || ds.head? != some '0') &&
    (Text.readNatural 255 text).isOk

/-- Four octets with points between them. -/
def isFourOctets (text : String) : Bool :=
  let parts := text.splitOn "."
  parts.length == 4 && parts.all isOctet

/-- One to four digits in base 16. -/
def isGroup (text : String) : Bool :=
  let ds := text.toList
  1 ≤ ds.length && ds.length ≤ 4 && ds.all fun d => (Text.hexDigit? d).isSome

/-- The number of groups in a list of parts, of which the last may be four octets in the place of
two groups. -/
def countGroups : List String → Option Nat
  | [] => some 0
  | [last] => if isGroup last then some 1 else if isFourOctets last then some 2 else none
  | part :: rest => if isGroup part then (countGroups rest).map (· + 1) else none

/-- The number of groups in a text with colons between them. -/
def groups? (text : String) : Option Nat :=
  if text.isEmpty then some 0 else countGroups (text.splitOn ":")

/-- Eight groups with colons between them, of which two colons may stand for one or more.  Octets
stand at the very end only. -/
def isEightGroups (text : String) : Bool :=
  match text.splitOn "::" with
  | [whole] => groups? whole == some 8
  | [head, tail] =>
    match groups? head, groups? tail with
    | some m, some n => m + n ≤ 7 && !head.contains '.'
    | _, _ => false
  | _ => false

/-- A host given as a number. -/
def isNumber (text : String) : Bool := isFourOctets text || isEightGroups text

/-- The characters that no name of a host has. -/
def forbidden : List Char := [' ', '#', '/', ':', '<', '>', '?', '@', '[', '\\', ']', '^', '|']

/-- A character that no name of a host has. -/
def isForbidden (c : Char) : Bool :=
  forbidden.contains c || c == '\t' || c == '\n' || c == '\r' || c.toNat == 0

end Objectives.Host
