import PathSieve.Mask.Language

/-!
# Covering by trial

The plain way to find out whether a mask covers a path is to take its symbols in turn and, at a
`*`, to try one place after the other for what comes next, going back to the `*` when a trial
fails. `Mask.backtrack` is that search, with the usual shortcuts: stars in a row count as one,
behind a `*` the next symbol is tried only where it can take a character, and a `*` at the end
of the mask is settled without any trial.

Trials inside trials can take time beyond any power of the lengths, so paths are judged by
`Mask.covers` instead. `backtrack_eq_covers` says that the two never differ. The induction follows
the symbols of the mask; at each it says the same of the search in front of the mask and of the
one that has a `*` open before it.
-/

namespace PathSieve

/-- Whether a `*` at the end of a mask may stop somewhere in the given rest of a path: it can take
    all of it, or stop in front of any separator. -/
def Extent.acceptsRun (separator : Char) : Extent → (rest : Text) → Bool
  | whole, _ => true
  | ancestor, rest => rest.contains separator
  | either, _ => true

/-- A `*` at the end is settled as if every suffix had been tried. -/
theorem Extent.acceptsRun_iff {extent : Extent} {separator : Char} {path : Text} :
    extent.acceptsRun separator path ↔ ∃ rest, rest <:+ path ∧ extent.accepts separator rest := by
  cases extent with
  | whole => exact iff_of_true rfl ⟨[], List.nil_suffix, rfl⟩
  | either => exact iff_of_true rfl ⟨[], List.nil_suffix, rfl⟩
  | ancestor =>
    simp only [acceptsRun, List.contains_iff_mem, accepts_ancestor]
    constructor
    · intro member
      obtain ⟨before, below, rfl⟩ := List.append_of_mem member
      exact ⟨separator :: below, List.suffix_append .., below, rfl⟩
    · rintro ⟨_, ends, below, rfl⟩
      exact ends.subset List.mem_cons_self

namespace Mask

/-- What is left of a path when a symbol other than a `*` has taken the first character: a `?`
    takes any, every other symbol its own. -/
def take? : (symbol : Char) → (path : Text) → Option Text
  | '?', path => path.tail?
  | literal, path => Text.after? [literal] path

/-- A symbol takes the first character of a path and nothing else. -/
theorem take?_eq_some_iff {symbol : Char} {path rest : Text} :
    take? symbol path = some rest ↔
      ∃ first, path = first :: rest ∧ (symbol = '?' ∨ symbol = first) := by
  unfold take?
  split
  · cases path <;> simp [eq_comm]
  · next notSingle =>
    have literal : symbol ≠ '?' := notSingle
    simp only [Text.after?_eq_some_iff, List.singleton_append, literal, false_or]
    constructor
    · rintro rfl
      exact ⟨symbol, rfl, rfl⟩
    · rintro ⟨_, rfl, rfl⟩
      rfl

mutual

/-- Whether a mask describes a path to the given extent, by trial. -/
def backtrack (extent : Extent) (separator : Char) : (mask : Mask) → (path : Text) → Bool
  | [], path => extent.accepts separator path
  | '*' :: mask, path => backtrackRun extent separator mask path
  | symbol :: mask, path => (take? symbol path).any (backtrack extent separator mask)

/-- Whether a mask with a `*` before it describes a path to the given extent, by trial: the first
    symbol is tried wherever it can take a character. -/
def backtrackRun (extent : Extent) (separator : Char) : (mask : Mask) → (path : Text) → Bool
  | [], path => extent.acceptsRun separator path
  | '*' :: mask, path => backtrackRun extent separator mask path
  | symbol :: mask, path =>
    (path.suffixes.filterMap (take? symbol)).any (backtrack extent separator mask)

end

variable {symbol : Char} {mask : Mask} {extent : Extent} {separator : Char} {path : Text}

/-- Stars in a row cover what one of them covers. -/
theorem covers_run_run :
    covers ('*' :: '*' :: mask) extent separator path ↔
      covers ('*' :: mask) extent separator path := by
  simp only [covers_cons_run]
  constructor
  · rintro ⟨start, startEnds, rest, ends, covered⟩
    exact ⟨rest, ends.trans startEnds, covered⟩
  · rintro ⟨rest, ends, covered⟩
    exact ⟨rest, ends, rest, List.suffix_rfl, covered⟩

/-- A mask whose first symbol is not a `*` covers a path when the symbol takes a character and the
    rest of the mask covers what is left. -/
theorem covers_cons_iff_take? (notRun : symbol ≠ '*') :
    covers (symbol :: mask) extent separator path ↔
      ∃ rest, take? symbol path = some rest ∧ mask.covers extent separator rest := by
  simp only [covers_cons_of_ne notRun, take?_eq_some_iff]
  constructor
  · rintro ⟨first, rest, split, takes, covered⟩
    exact ⟨rest, ⟨first, split, takes⟩, covered⟩
  · rintro ⟨rest, ⟨first, split, takes⟩, covered⟩
    exact ⟨first, rest, split, takes, covered⟩

/-- Without a `*` the search has one place to try. -/
theorem backtrack_cons_of_ne (notRun : symbol ≠ '*') :
    backtrack extent separator (symbol :: mask) path =
      (take? symbol path).any (backtrack extent separator mask) := by
  rw [backtrack]
  exact notRun

/-- Behind a `*` the search has a place to try in front of every character that the next symbol
    can take. -/
theorem backtrackRun_cons_of_ne (notRun : symbol ≠ '*') :
    backtrackRun extent separator (symbol :: mask) path =
      (path.suffixes.filterMap (take? symbol)).any (backtrack extent separator mask) := by
  rw [backtrackRun]
  exact notRun

/-- Trial finds out whether a mask covers a path, and whether it does with a `*` before it. -/
theorem backtrack_iff :
    (mask.backtrack extent separator path ↔ mask.covers extent separator path) ∧
      (mask.backtrackRun extent separator path ↔
        covers ('*' :: mask) extent separator path) := by
  induction mask generalizing path with
  | nil =>
    constructor
    · rw [backtrack, covers_nil]
    · rw [backtrackRun, Extent.acceptsRun_iff, covers_cons_run]
      simp only [covers_nil]
  | cons symbol mask inductionHypothesis =>
    by_cases isRun : symbol = '*'
    · subst isRun
      rw [backtrack, backtrackRun, covers_run_run]
      exact ⟨inductionHypothesis.2, inductionHypothesis.2⟩
    · constructor
      · rw [backtrack_cons_of_ne isRun, covers_cons_iff_take? isRun, Option.any_eq_true]
        exact exists_congr fun rest => and_congr_right fun _ => inductionHypothesis.1
      · rw [backtrackRun_cons_of_ne isRun, covers_cons_run, List.any_eq_true]
        simp only [List.mem_filterMap, Text.mem_suffixes, covers_cons_iff_take? isRun,
          inductionHypothesis.1]
        constructor
        · rintro ⟨rest, ⟨start, ends, taken⟩, covered⟩
          exact ⟨start, ends, rest, taken, covered⟩
        · rintro ⟨start, ends, rest, taken, covered⟩
          exact ⟨rest, ⟨start, ends, taken⟩, covered⟩

/-- Trial never differs from covering. -/
theorem backtrack_eq_covers (mask : Mask) (extent : Extent) (separator : Char) (path : Text) :
    mask.backtrack extent separator path = mask.covers extent separator path :=
  Bool.eq_iff_iff.mpr backtrack_iff.1

end Mask

end PathSieve
