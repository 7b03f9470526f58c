/- # Quoted text

A text in quotes, in which every character can be seen: the usual escapes for quotes, backslashes
and line breaks, and the code in braces for all other characters that cannot be seen.

Main definitions:

* `Text.escapeCharacter` — a character as it stands in quotes;
* `Text.quoted` — a text in quotes.
-/

import Objectives.Text.Unprintable

set_option relaxedAutoImplicit false
set_option autoImplicit false

namespace Objectives.Text

/-- A character that can be seen on its own. -/
def isPrintable (c : Char) : Bool :=
  !unprintableRanges.any fun (low, high) => low ≤ c.toNat && c.toNat ≤ high

/-- The code of a character in base 16 and in braces. -/
def codeEscape (c : Char) : String :=
  "\\u\x7b" ++ String.ofList (Nat.toDigits 16 c.toNat) ++ "\x7d"

/-- A character as it stands in quotes. -/
def escapeCharacter (c : Char) : String :=
  if c = '"' then "\\\""
  else if c = '\\' then "\\\\"
  else if c = '\n' then "\\n"
  else if c = '\r' then "\\r"
  else if c = '\t' then "\\t"
  else if c.toNat = 0 then "\\0"
  else if isPrintable c then c.toString
  else codeEscape c

/-- A text in quotes. -/
def quoted (s : String) : String :=
  "\"" ++ String.join (s.toList.map escapeCharacter) ++ "\""

end Objectives.Text
