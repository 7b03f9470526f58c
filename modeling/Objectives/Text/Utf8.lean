/- # Bytes of text

UTF-8 spells a character by one to four bytes.  Bytes that spell no character are told apart by
where they stand and by how many of them there are, or by the text ending within a character.

Main definitions:

* `Utf8.encode` — the bytes of a text;
* `Utf8.scan` — the characters that bytes spell, and the places where they spell none;
* `Utf8.decode`, `Utf8.decodeAnyway` — the text of bytes, refused at the first such place or with a
  replacement character for each.
-/

set_option relaxedAutoImplicit false
set_option autoImplicit false

namespace Objectives.Utf8

/-- Where bytes spell no character: the place, and the number of bytes in question unless the text
ends there. -/
structure Fault where
  place : Nat
  size? : Option Nat
  deriving DecidableEq, Repr

/-- The sentence for a fault. -/
def Fault.message (f : Fault) : String :=
  match f.size? with
  | some size => s!"invalid utf-8 sequence of {size} bytes from index {f.place}"
  | none => s!"incomplete utf-8 byte sequence from index {f.place}"

/-- The bytes of a text. -/
def encode (text : List Char) : List Nat :=
  text.flatMap fun c => (String.utf8EncodeChar c).map UInt8.toNat

/-- What stands at the start of some bytes. -/
inductive Start
  | character (c : Char) (size : Nat)
  | none (size : Nat)
  | cut
  deriving DecidableEq, Repr

/-- Reads the bytes of a character after its first `size` ones, which spell `code` so far.  The next
byte has bounds of its own; those after it have only the mark of a byte that is not the first. -/
def continued (code size : Nat) : Nat → Nat → Nat → List Nat → Start
  | 0, _, _, _ => .character (Char.ofNat code) size
  | _ + 1, _, _, [] => .cut
  | owed + 1, low, high, b :: rest =>
    if low ≤ b ∧ b ≤ high then
      continued (code * 64 + b % 64) (size + 1) owed 0x80 0xBF rest
    else .none size

/-- What stands at the start of some bytes.  The bounds of the second byte leave out what could be
spelled by fewer bytes, halves of characters, and codes above the last character. -/
def start : List Nat → Start
  | [] => .cut
  | b :: rest =>
    if b < 0x80 then .character (Char.ofNat b) 1
    else if 0xC2 ≤ b ∧ b < 0xE0 then continued (b % 32) 1 1 0x80 0xBF rest
    else if 0xE0 ≤ b ∧ b < 0xF0 then
      continued (b % 16) 1 2 (if b = 0xE0 then 0xA0 else 0x80) (if b = 0xED then 0x9F else 0xBF)
        rest
    else if 0xF0 ≤ b ∧ b < 0xF5 then
      continued (b % 8) 1 3 (if b = 0xF0 then 0x90 else 0x80) (if b = 0xF4 then 0x8F else 0xBF)
        rest
    else .none 1

/-- The characters that bytes from a place on spell, and the faults between them.  The first number
is at least that of the bytes. -/
def scanFrom : Nat → Nat → List Nat → List (Except Fault Char)
  | left + 1, place, b :: rest =>
    match start (b :: rest) with
    | .character c size => .ok c :: scanFrom left (place + size) ((b :: rest).drop size)
    | .none size =>
      .error ⟨place, some size⟩ :: scanFrom left (place + size) ((b :: rest).drop size)
    | .cut => [.error ⟨place, none⟩]
  | _, _, _ => []

/-- The characters that bytes spell, and the faults between them. -/
def scan (bytes : List Nat) : List (Except Fault Char) :=
  scanFrom bytes.length 0 bytes

/-- The text of bytes, or the first fault in them. -/
def decode (bytes : List Nat) : Except Fault (List Char) :=
  (scan bytes).mapM id

/-- The text of bytes, with a replacement character for each fault. -/
def decodeAnyway (bytes : List Nat) : List Char :=
  (scan bytes).map fun
    | .ok c => c
    | .error _ => Char.ofNat 0xFFFD

/-- A byte below 128 spells the character of that code. -/
theorem start_of_lt {b : Nat} (rest : List Nat) (h : b < 0x80) :
    start (b :: rest) = .character (Char.ofNat b) 1 := by
  simp [start, h]

end Objectives.Utf8
