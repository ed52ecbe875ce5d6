import PathSieve.Text.Basic

/-!
# Masks

A mask is a text in which `*` stands for any run of characters and `?` for any
single one. A mask covers a path when it describes the whole path or, where that
is asked, one of the folders above it; `Mask.mayBegin` is the weaker question
whether the path could be continued to one that the mask describes in full.

Covering is decided by carrying along what may be left of the path after each
symbol of the mask. These remainders are suffixes of the path, longest first, so
a `*` only has to look at the first of them and the work is bounded by the
product of the two lengths.
-/

namespace PathSieve

/-- A mask is the sequence of its symbols. -/
abbrev Mask := Text

/-- How much of a path a mask has to describe. -/
inductive Extent where
  /-- The whole path. -/
  | whole
  /-- A folder above the path. -/
  | ancestor
  /-- The whole path or a folder above it. -/
  | either
deriving DecidableEq, Repr

/-- Whether a mask may stop before the given rest of a path: at the end of the path, or
    where a separator ends the name of a folder above it. -/
def Extent.accepts (separator : Char) : Extent → (rest : Text) → Bool
  | whole, rest => rest.isEmpty
  | ancestor, rest => rest.head? == some separator
  | either, rest => rest.isEmpty || rest.head? == some separator

/-- Above a path a mask stops in front of a separator. -/
theorem Extent.accepts_ancestor {separator : Char} {rest : Text} :
    ancestor.accepts separator rest ↔ ∃ below, rest = separator :: below := by
  cases rest <;> simp [accepts]

/-- At a path or above it a mask stops at the end or in front of a separator. -/
theorem Extent.accepts_either {separator : Char} {rest : Text} :
    either.accepts separator rest ↔ rest = [] ∨ ∃ below, rest = separator :: below := by
  cases rest <;> simp [accepts]

namespace Mask

/-- What may be left after one symbol, given what may be left before it, longest first. -/
def advance (rests : List Text) : (symbol : Char) → List Text
  | '*' => (rests.head?.map Text.suffixes).getD []
  | '?' => rests.filterMap List.tail?
  | literal => rests.filterMap (Text.after? [literal])

/-- What may be left of a path after the whole mask, longest first. -/
def remainders (mask : Mask) (path : Text) : List Text :=
  mask.foldl advance [path]

/-- Whether a mask describes a path to the given extent. -/
def covers (mask : Mask) (extent : Extent) (separator : Char) (path : Text) : Bool :=
  (mask.remainders path).any (extent.accepts separator)

/-- Whether a path is the beginning of some text that the mask describes. -/
def mayBegin : (mask : Mask) → (path : Text) → Bool
  | _, [] => true
  | [], _ :: _ => false
  | symbol :: mask, first :: path =>
    symbol == '*' || (symbol == '?' || symbol == first) && mayBegin mask path

end Mask

end PathSieve
