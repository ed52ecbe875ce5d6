/-!
# Text

Paths, phrases and masks are texts: finite sequences of Unicode scalar values.
This module holds the type, the suffixes of a text, which are what a wildcard
can leave over, and the two ways of cutting a known piece off an end.

`mem_suffixes` says that the listed suffixes are all of them; `after?_eq_some_iff`
and `before?_eq_some_iff` say that a cut succeeds exactly when the piece stands
at that end, and that it keeps everything else.
-/

namespace PathSieve

/-- A text is the sequence of its scalar values. -/
abbrev Text := List Char

namespace Text

/-- Every suffix of a text, longest first, ending with the empty one. -/
def suffixes : Text → List Text
  | [] => [[]]
  | first :: rest => (first :: rest) :: suffixes rest

/-- The listed suffixes are exactly the texts that end the given one. -/
@[simp] theorem mem_suffixes {remainder text : Text} :
    remainder ∈ suffixes text ↔ remainder <:+ text := by
  induction text with
  | nil => simp [suffixes]
  | cons first rest inductionHypothesis =>
    simp [suffixes, inductionHypothesis, List.suffix_cons_iff]

/-- What follows the piece `start` in a text that begins with it. -/
def after? : (start text : Text) → Option Text
  | [], text => some text
  | _ :: _, [] => none
  | expected :: start, first :: rest => if first = expected then after? start rest else none

/-- What precedes the piece `finish` in a text that ends with it. -/
def before? (finish text : Text) : Option Text :=
  (after? finish.reverse text.reverse).map List.reverse

/-- Cutting a start off succeeds exactly on the texts that begin with it. -/
theorem after?_eq_some_iff {start text rest : Text} :
    after? start text = some rest ↔ text = start ++ rest := by
  induction start generalizing text with
  | nil => simp [after?]
  | cons expected start inductionHypothesis =>
    cases text with
    | nil => simp [after?]
    | cons first text =>
      by_cases same : first = expected <;> simp [after?, same, inductionHypothesis]

/-- Cutting an end off succeeds exactly on the texts that end with it. -/
theorem before?_eq_some_iff {finish text head : Text} :
    before? finish text = some head ↔ text = head ++ finish := by
  simp only [before?, Option.map_eq_some_iff, after?_eq_some_iff]
  constructor
  · rintro ⟨reversed, split, rfl⟩
    simpa using congrArg List.reverse split
  · rintro rfl
    exact ⟨head.reverse, by simp, by simp⟩

end Text

end PathSieve
