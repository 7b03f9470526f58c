/- # Blank characters

Free text is stored without the blanks around it.  A character is blank when Unicode gives it the
property `White_Space`; look-alikes such as the zero-width space or the byte-order mark are not.

Main definitions:

* `Text.isBlank` — the property, as a list of ranges;
* `Text.trim` — a text without the blanks at its two ends.

Main results:

* `Text.isBlank_of_isWhitespace` — every character that core calls whitespace is blank;
* `Text.trimLeft_eq_self` — a list that starts with no blank is left as it is;
* `Text.mem_trim` — a character that is not blank stays.
-/

namespace Objectives.Text

/-- The ranges of code points with the property `White_Space`, in increasing order. -/
def blankRanges : List (Nat × Nat) :=
  [(0x09, 0x0D), (0x20, 0x20), (0x85, 0x85), (0xA0, 0xA0), (0x1680, 0x1680), (0x2000, 0x200A),
    (0x2028, 0x2029), (0x202F, 0x202F), (0x205F, 0x205F), (0x3000, 0x3000)]

/-- A character with the property `White_Space`. -/
def isBlank (c : Char) : Bool :=
  blankRanges.any fun (low, high) => low ≤ c.toNat && c.toNat ≤ high

/-- Every character that core calls whitespace is blank. -/
theorem isBlank_of_isWhitespace {c : Char} (h : c.isWhitespace = true) : isBlank c = true := by
  simp only [Char.isWhitespace, Bool.or_eq_true, decide_eq_true_eq] at h
  rcases h with ((rfl | rfl) | rfl) | rfl <;> decide

/-- The characters from the first that is not blank on. -/
def trimLeft (text : List Char) : List Char :=
  text.dropWhile isBlank

@[simp] theorem trimLeft_nil : trimLeft [] = [] := rfl

/-- A list that starts with no blank is left as it is. -/
theorem trimLeft_eq_self {c : Char} {text : List Char} (h : isBlank c = false) :
    trimLeft (c :: text) = c :: text := by
  simp [trimLeft, h]

/-- The text without the blanks at its start and at its end. -/
def trim (text : String) : String :=
  String.ofList (trimLeft (trimLeft text.toList).reverse).reverse

theorem mem_trimLeft {c : Char} {text : List Char} (hc : isBlank c = false) (h : c ∈ text) :
    c ∈ trimLeft text := by
  induction text with
  | nil => cases h
  | cons first rest ih =>
    cases hfirst : isBlank first with
    | false => rwa [trimLeft_eq_self hfirst]
    | true =>
      rw [trimLeft, List.dropWhile_cons_of_pos hfirst]
      rcases List.mem_cons.1 h with rfl | h
      · rw [hc] at hfirst
        cases hfirst
      · exact ih h

/-- A character that is not blank stays. -/
theorem mem_trim {c : Char} {text : String} (hc : isBlank c = false) (h : c ∈ text.toList) :
    c ∈ (trim text).toList := by
  rw [trim, String.toList_ofList, List.mem_reverse]
  exact mem_trimLeft hc (List.mem_reverse.2 (mem_trimLeft hc h))

end Objectives.Text
