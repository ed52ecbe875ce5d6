import PathSieve.Text.Basic

/-!
# Blanks and trimming

A blank is a scalar value with the Unicode property `White_Space`. The
property holds of twenty-five scalar values, listed here as closed ranges. Trimming takes the
blanks off both ends of a text and keeps those inside.

`trim_of_ends` says that a text which neither begins nor ends with a blank is
left alone.
-/

namespace PathSieve.Text

/-- Closed ranges of the scalar values with the property `White_Space`, ascending. -/
def blankRanges : List (Nat × Nat) :=
  [(0x09, 0x0D), (0x20, 0x20), (0x85, 0x85), (0xA0, 0xA0), (0x1680, 0x1680),
    (0x2000, 0x200A), (0x2028, 0x2029), (0x202F, 0x202F), (0x205F, 0x205F),
    (0x3000, 0x3000)]

/-- A character is blank when it lies in one of the blank ranges. -/
def isBlank (character : Char) : Bool :=
  blankRanges.any fun (first, last) =>
    first ≤ character.toNat && character.toNat ≤ last

/-- Drop the blanks at the start of a text. -/
def trimStart (text : Text) : Text :=
  text.dropWhile isBlank

/-- Drop the blanks at the end of a text. -/
def trimEnd (text : Text) : Text :=
  (trimStart text.reverse).reverse

/-- Drop the blanks at both ends of a text. -/
def trim (text : Text) : Text :=
  trimEnd (trimStart text)

/-- A text that does not begin with a blank keeps its start. -/
theorem trimStart_of_head {text : Text}
    (start : ∀ character ∈ text.head?, isBlank character = false) :
    trimStart text = text := by
  cases text with
  | nil => rfl
  | cons first rest => simp [trimStart, start first rfl]

/-- A text that neither begins nor ends with a blank is its own trim. -/
theorem trim_of_ends {text : Text}
    (start : ∀ character ∈ text.head?, isBlank character = false)
    (finish : ∀ character ∈ text.getLast?, isBlank character = false) :
    trim text = text := by
  rw [trim, trimStart_of_head start, trimEnd, trimStart_of_head, List.reverse_reverse]
  simpa using finish

end PathSieve.Text
