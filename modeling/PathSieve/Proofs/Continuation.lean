import PathSieve.Mask.Language

/-!
# Masks and the paths that go on

A path can be gone on with: by any text, where the question is whether a mask might
still describe it, or by a separator and the name of an entry, where the path is that
of a folder. This module says what a mask that is asked about a path knows of the
longer ones.

`mayBegin_iff` says that `Mask.mayBegin` is exact: it holds when some continuation is
described, and then one of them ends the mask itself. `covers_below` hands what
describes a folder down to everything below it, and `covers_above_or_beyond` says
that a mask reaches something below a folder in only two ways, through the folder or
by going on beyond it. Where nothing but a name follows the folder there is no place to
stop beyond it (`covers_ancestor_entry`).
-/

namespace PathSieve

/-- Where a mask may stop before a rest that holds a separator, it may stop before what the rest
    has in front of the separator, if a folder above is enough. -/
theorem Extent.accepts_either_of_append {extent : Extent} {separator : Char}
    {before below : Text} (accepted : extent.accepts separator (before ++ separator :: below)) :
    either.accepts separator before := by
  cases before with
  | nil => rfl
  | cons first between =>
    cases extent with
    | whole => exact absurd accepted (by simp [accepts])
    | ancestor => simpa [accepts] using accepted
    | either => simpa [accepts] using accepted

namespace Mask

/-- Read as a text a mask is one of those it describes: its wildcards stand for
    themselves. -/
theorem describes_self (mask : Mask) : Describes mask mask := by
  induction mask with
  | nil => exact .empty
  | cons symbol mask inductionHypothesis =>
    by_cases isRun : symbol = '*'
    · subst isRun
      exact .run ['*'] inductionHypothesis
    · by_cases isSingle : symbol = '?'
      · subst isSingle
        exact .single '?' inductionHypothesis
      · exact .literal symbol isRun isSingle inductionHypothesis

/-- Past the first symbol, unless that is a `*`, a mask may begin what is left of a path
    exactly when the symbol takes the path's first character. -/
theorem mayBegin_cons_of_ne {symbol first : Char} {mask : Mask} {path : Text}
    (notRun : symbol ≠ '*') :
    mayBegin (symbol :: mask) (first :: path) ↔
      (symbol = '?' ∨ symbol = first) ∧ mask.mayBegin path := by
  simp [mayBegin, notRun]

/-- A path that a mask may begin can be gone on with by an end of that mask. Up to the end
    of the path every symbol has taken its character, or a `*` was met that can take all
    that is left of the path; the symbols after that stand for themselves. -/
theorem exists_finish_of_mayBegin {mask : Mask} {path : Text} (begins : mask.mayBegin path) :
    ∃ finish, finish <:+ mask ∧ Describes mask (path ++ finish) := by
  induction path generalizing mask with
  | nil => exact ⟨mask, List.suffix_rfl, describes_self mask⟩
  | cons first path inductionHypothesis =>
    cases mask with
    | nil => exact absurd begins (by simp [mayBegin])
    | cons symbol mask =>
      by_cases isRun : symbol = '*'
      · subst isRun
        exact ⟨mask, List.suffix_cons _ _, .run (first :: path) (describes_self mask)⟩
      · obtain ⟨takes, rest⟩ := (mayBegin_cons_of_ne isRun).mp begins
        obtain ⟨finish, ends, described⟩ := inductionHypothesis rest
        exact ⟨finish, ends.trans (List.suffix_cons _ _),
          (describes_cons_of_ne isRun).mpr ⟨first, path ++ finish, rfl, takes, described⟩⟩

/-- A mask that describes some continuation of a path may begin with the path. -/
theorem mayBegin_of_describes {mask : Mask} {path finish : Text}
    (described : Describes mask (path ++ finish)) : mask.mayBegin path := by
  induction path generalizing mask with
  | nil => cases mask <;> rfl
  | cons first path inductionHypothesis =>
    cases mask with
    | nil => exact absurd (describes_nil.mp described) (by simp)
    | cons symbol mask =>
      by_cases isRun : symbol = '*'
      · simp [mayBegin, isRun]
      · obtain ⟨_, rest, split, takes, language⟩ := (describes_cons_of_ne isRun).mp described
        obtain ⟨rfl, rfl⟩ := List.cons.inj split
        exact (mayBegin_cons_of_ne isRun).mpr ⟨takes, inductionHypothesis language⟩

/-- A mask may begin with a path exactly when it describes some continuation of it. -/
theorem mayBegin_iff {mask : Mask} {path : Text} :
    mask.mayBegin path ↔ ∃ finish, Describes mask (path ++ finish) := by
  constructor
  · intro begins
    obtain ⟨finish, _, described⟩ := exists_finish_of_mayBegin begins
    exact ⟨finish, described⟩
  · rintro ⟨finish, described⟩
    exact mayBegin_of_describes described

variable {mask : Mask} {separator : Char} {path : Text}

/-- A folder above a path counts wherever the path itself would count as well. -/
theorem covers_either_of_ancestor (covered : mask.covers .ancestor separator path) :
    mask.covers .either separator path := by
  obtain ⟨described, rest, split, language, accepted⟩ := covers_iff.mp covered
  have stops : Extent.either.accepts separator rest :=
    Extent.accepts_either.mpr (.inr (Extent.accepts_ancestor.mp accepted))
  exact covers_iff.mpr ⟨described, rest, split, language, stops⟩

/-- What describes a folder or one above it describes a folder above everything below. The
    mask stops where it stopped; if that was the end of the folder's path, a separator is
    there now. -/
theorem covers_below (below : Text) (covered : mask.covers .either separator path) :
    mask.covers .ancestor separator (path ++ separator :: below) := by
  obtain ⟨described, rest, rfl, language, accepted⟩ := covers_iff.mp covered
  have stops : Extent.ancestor.accepts separator (rest ++ separator :: below) := by
    rw [Extent.accepts_ancestor]
    rcases Extent.accepts_either.mp accepted with rfl | ⟨between, rfl⟩
    · exact ⟨below, rfl⟩
    · exact ⟨between ++ separator :: below, rfl⟩
  exact covers_iff.mpr
    ⟨described, rest ++ separator :: below, List.append_assoc .., language, stops⟩

/-- What a mask covers below a folder it covers either with the folder, by describing the folder or
    one above it, or by going on beyond the separator behind the folder and stopping further
    down. Where the described beginning ends decides which. -/
theorem covers_above_or_beyond {extent : Extent} {below : Text}
    (covered : mask.covers extent separator (path ++ separator :: below)) :
    mask.covers .either separator path ∨
      ∃ beyond rest, below = beyond ++ rest ∧ Describes mask (path ++ separator :: beyond) ∧
        extent.accepts separator rest := by
  obtain ⟨described, rest, split, language, accepted⟩ := covers_iff.mp covered
  rcases List.append_eq_append_iff.mp split with ⟨beyond, rfl, ends⟩ | ⟨before, rfl, rfl⟩
  -- The described beginning holds the whole path of the folder, and more unless it ends there.
  · cases beyond with
    | nil =>
      rw [List.append_nil] at language
      exact .inl (covers_iff.mpr ⟨path, [], (List.append_nil path).symm, language, rfl⟩)
    | cons first beyond =>
      obtain ⟨rfl, rfl⟩ := List.cons.inj ends
      exact .inr ⟨beyond, rest, rfl, language, accepted⟩
  -- It ends within the path, where it may stop for the same reason as before.
  · have stops : Extent.either.accepts separator before := Extent.accepts_either_of_append accepted
    exact .inl (covers_iff.mpr ⟨described, before, rfl, language, stops⟩)

/-- A mask reaches what is below a folder in only two ways: through the folder, or by going on
    beyond it. -/
theorem covers_above_or_mayBegin {below : Text}
    (covered : mask.covers .either separator (path ++ separator :: below)) :
    mask.covers .either separator path ∨ mask.mayBegin (path ++ [separator]) := by
  rcases covers_above_or_beyond covered with above | ⟨beyond, _, _, language, _⟩
  · exact .inl above
  · refine .inr (mayBegin_iff.mpr ⟨beyond, ?_⟩)
    rwa [List.append_assoc]

/-- With the name of an entry behind a folder, the folders above the entry are that folder and
    those above it. -/
theorem covers_ancestor_entry {name : Text} (plain : separator ∉ name) :
    mask.covers .ancestor separator (path ++ separator :: name) ↔
      mask.covers .either separator path := by
  constructor
  · intro covered
    rcases covers_above_or_beyond covered with above | ⟨_, _, rfl, _, accepted⟩
    · exact above
    · obtain ⟨_, rfl⟩ := Extent.accepts_ancestor.mp accepted
      exact absurd (List.mem_append_right _ List.mem_cons_self) plain
  · exact covers_below name

/-- Above a lone name there is no folder. -/
theorem not_covers_ancestor_name {name : Text} (plain : separator ∉ name) :
    mask.covers .ancestor separator name = false := by
  rw [← Bool.not_eq_true]
  intro covered
  obtain ⟨_, _, rfl, _, accepted⟩ := covers_iff.mp covered
  obtain ⟨_, rfl⟩ := Extent.accepts_ancestor.mp accepted
  exact plain (List.mem_append_right _ List.mem_cons_self)

end Mask

end PathSieve
