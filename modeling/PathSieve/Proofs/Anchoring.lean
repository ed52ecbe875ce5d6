import PathSieve.Proofs.Compilation
import PathSieve.Proofs.Spelling
import PathSieve.Proofs.Splitting

/-!
# Anchored phrases and phrases for any depth

Of an anchored phrase nothing matters but the folder mark at its end. This module says which
mask the phrase gives with such a mark (`place_of_isMarked`) and without (`place_of_not_isMarked`),
and how phrases that begin with the separator, or with a `*` and the separator, come down to
anchored ones: `compile_anchored` and `compile_anyDepth`.
-/

namespace PathSieve

namespace Platform

/-- The separator is not a `*`. -/
theorem separator_ne_run (platform : Platform) : platform.separator ≠ '*' := by
  cases platform <;> decide

/-- The separator is not a `?`. -/
theorem separator_ne_single (platform : Platform) : platform.separator ≠ '?' := by
  cases platform <;> decide

/-- A separator in front of a text is its own spelling. -/
theorem normalize_separator_cons (platform : Platform) (rest : Text) :
    platform.normalize (platform.separator :: rest) =
      platform.separator :: platform.normalize rest :=
  normalize_below (.inl rfl) [] rest

/-- A `*` in front of a text is its own spelling. -/
theorem normalize_run_cons (platform : Platform) (rest : Text) :
    platform.normalize ('*' :: rest) = '*' :: platform.normalize rest := by
  have kept : platform.normalizeChar '*' = '*' :=
    (normalizeChar_eq_wildcard_iff (.inl rfl)).mpr rfl
  rw [normalize, List.map_cons, kept]
  rfl

/-- Only a lone `*` is spelled as one. -/
theorem normalize_eq_run_iff {platform : Platform} {text : Text} :
    platform.normalize text = ['*'] ↔ text = ['*'] := by
  simp only [normalize, List.map_eq_singleton_iff, normalizeChar_eq_wildcard_iff (.inl rfl),
    exists_eq_right]

end Platform

namespace Phrase

variable {separator : Char} {phrase name : Text}

/-- A phrase bears a folder mark behind a name: a separator, or a separator and a `*`. -/
def IsMarked (separator : Char) (phrase name : Text) : Prop :=
  phrase = name ++ [separator] ∨ phrase = name ++ [separator, '*']

/-- The name is what stands before the folder mark. A phrase cannot end in both ways, so it
    does not matter which mark is looked for first. -/
theorem beforeFolderMark?_eq_some_iff (notRun : separator ≠ '*') :
    beforeFolderMark? separator phrase = some name ↔ IsMarked separator phrase name := by
  rw [beforeFolderMark?, Option.or_eq_some_iff, Text.before?_eq_some_iff,
    Text.before?_eq_some_iff]
  constructor
  · exact fun found => found.imp_right And.right
  · refine fun marked => marked.imp_right fun withRun => ⟨?_, withRun⟩
    rw [Option.eq_none_iff_forall_ne_some]
    intro other cut
    have ends : name ++ [separator] ++ ['*'] = other ++ [separator] := by
      rw [← Text.before?_eq_some_iff.mp cut, withRun, List.append_assoc]
      rfl
    obtain ⟨_, last⟩ := List.append_inj' ends rfl
    exact notRun (List.singleton_inj.mp last).symm

/-- With a folder mark an anchored phrase gives the name before it, for folders. -/
theorem place_of_isMarked (notRun : separator ≠ '*') (marked : IsMarked separator phrase name) :
    place separator phrase = ⟨[], unlessEmpty name⟩ := by
  rw [place, (beforeFolderMark?_eq_some_iff notRun).mpr marked]

/-- Without a folder mark an anchored phrase gives itself, for entries of any kind. -/
theorem place_of_not_isMarked (notRun : separator ≠ '*')
    (unmarked : ∀ name, ¬ IsMarked separator phrase name) :
    place separator phrase = ⟨unlessEmpty phrase, []⟩ := by
  have none : beforeFolderMark? separator phrase = none := by
    rw [Option.eq_none_iff_forall_ne_some]
    exact fun name found => unmarked name ((beforeFolderMark?_eq_some_iff notRun).mp found)
  rw [place, none]

/-- For entries an anchored phrase gives itself, unless it is empty or bears a folder mark. -/
theorem mem_entry_place {mask : Mask} (notRun : separator ≠ '*') :
    mask ∈ (place separator phrase).part .entry ↔
      mask = phrase ∧ phrase ≠ [] ∧ ∀ name, ¬ IsMarked separator phrase name := by
  by_cases marked : ∃ name, IsMarked separator phrase name
  · obtain ⟨name, mark⟩ := marked
    rw [place_of_isMarked notRun mark]
    exact iff_of_false List.not_mem_nil fun found => found.2.2 name mark
  · have unmarked : ∀ name, ¬ IsMarked separator phrase name := not_exists.mp marked
    rw [place_of_not_isMarked notRun unmarked]
    exact mem_unlessEmpty.trans (and_congr_right fun _ => (and_iff_left unmarked).symm)

/-- A phrase that begins with the separator stands for what is behind it. -/
theorem anchorings_separator_cons (separator : Char) (rest : Text) :
    anchorings separator (separator :: rest) = [rest] := by
  simp [anchorings, Text.after?]

/-- A phrase that begins with a `*` and the separator stands for itself and, a second time, for
    what is behind the separator. -/
theorem anchorings_run_separator_cons (notRun : separator ≠ '*') (rest : Text) :
    anchorings separator ('*' :: separator :: rest) = ['*' :: separator :: rest, rest] := by
  simp [anchorings, Text.after?, notRun.symm]

/-- A phrase that does not begin with the separator is one of its own anchorings. -/
theorem mem_anchorings_self (relative : ∀ rest, phrase ≠ separator :: rest) :
    phrase ∈ anchorings separator phrase := by
  unfold anchorings
  split
  · next rest cut => exact absurd (Text.after?_eq_some_iff.mp cut) (relative rest)
  · exact List.mem_cons_self

/-- A phrase that begins with neither stands for itself alone. -/
theorem anchorings_of_relative (relative : ∀ rest, phrase ≠ separator :: rest)
    (notAnyDepth : ∀ rest, phrase ≠ '*' :: separator :: rest) :
    anchorings separator phrase = [phrase] := by
  have noAnchor : Text.after? [separator] phrase = none :=
    Option.eq_none_iff_forall_ne_some.mpr fun rest cut =>
      relative rest (Text.after?_eq_some_iff.mp cut)
  have noDepth : Text.after? ['*', separator] phrase = none :=
    Option.eq_none_iff_forall_ne_some.mpr fun rest cut =>
      notAnyDepth rest (Text.after?_eq_some_iff.mp cut)
  rw [anchorings, noAnchor, noDepth]
  rfl

/-- A phrase that begins with the separator is anchored behind it. -/
theorem compile_anchored (platform : Platform) (rest : Text) :
    compile platform (platform.separator :: rest) =
      place platform.separator (platform.normalize rest) := by
  rw [compile, Platform.normalize_separator_cons, anchorings_separator_cons]
  simp [Scoped.flatMap]

/-- A phrase that begins with a `*` and the separator is anchored at its beginning and, a
    second time, behind the separator. -/
theorem compile_anyDepth (platform : Platform) (rest : Text) :
    compile platform ('*' :: platform.separator :: rest) =
      Scoped.flatMap (place platform.separator)
        ['*' :: platform.separator :: platform.normalize rest, platform.normalize rest] := by
  rw [compile, Platform.normalize_run_cons, Platform.normalize_separator_cons,
    anchorings_run_separator_cons platform.separator_ne_run]

/-- An anchored phrase can be held in a list if the text behind the separator neither ends with
    a blank nor has a delimiter in it. -/
theorem listable_anchored (platform : Platform) {rest : Text}
    (finish : ∀ character ∈ rest.getLast?, Text.isBlank character = false)
    (undelimited : ∀ character ∈ rest, isDelimiter character = false) :
    Listable (platform.separator :: rest) :=
  listable_cons (Platform.isBlank_of_isSeparator (.inl rfl))
    (Platform.isDelimiter_of_isSeparator (.inl rfl)) finish undelimited

end Phrase

/-- A list that is a single phrase selects the masks of that phrase. -/
theorem Selection.mem_part_ofText_of_listable {platform : Platform} {phrase : Text}
    {scope : Scope} {mask : Mask} (listable : Phrase.Listable phrase) :
    mask ∈ (ofText platform phrase).part scope ↔
      mask ∈ (Phrase.compile platform phrase).part scope := by
  rw [mem_part_ofText, Phrase.split_of_listable listable]
  simp

end PathSieve
