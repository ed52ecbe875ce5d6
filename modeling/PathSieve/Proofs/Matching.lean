import PathSieve.Mask.Backtracking
import PathSieve.Proofs.Continuation

/-!
# What masks cover

A mask stands for the texts that it describes by its structure alone. This module says that
masks cover just what they should according to these texts, and no more, whatever character
separates folders: `covers_exact` for the three extents to which a path may have to be
described, and `mayBegin_exact` for paths that are still to be gone on with.

To stop at the end of a path is to describe it, to stop in front of a separator is to describe
a folder above it. Neither the order in which a search takes the places for a `*` nor what it
skips can be seen in the answer.

From a folder to what is below it the extents change places: what is covered at the folder or
above it is covered above everything below. `extents_agree_along_path` puts together what the
answers for a folder and for the paths below it have to do with each other.
-/

namespace PathSieve.Mask

variable {mask : Mask} {separator : Char} {path : Text}

/-- A mask covers the whole of a path when it describes the path. -/
theorem covers_whole_iff : mask.covers .whole separator path ↔ Describes mask path := by
  rw [covers_iff]
  constructor
  · rintro ⟨described, rest, rfl, language, accepted⟩
    obtain rfl := List.isEmpty_iff.mp accepted
    rwa [List.append_nil]
  · exact fun language => ⟨path, [], (List.append_nil path).symm, language, rfl⟩

/-- A mask covers a folder above a path when it describes what stands before some separator. -/
theorem covers_ancestor_iff :
    mask.covers .ancestor separator path ↔
      ∃ folder below, path = folder ++ separator :: below ∧ Describes mask folder := by
  rw [covers_iff]
  constructor
  · rintro ⟨folder, rest, split, language, accepted⟩
    obtain ⟨below, rfl⟩ := Extent.accepts_ancestor.mp accepted
    exact ⟨folder, below, split, language⟩
  · rintro ⟨folder, below, split, language⟩
    exact ⟨folder, separator :: below, split, language, Extent.accepts_ancestor.mpr ⟨below, rfl⟩⟩

/-- To either extent a mask covers what it covers to one of the other two. -/
theorem covers_either_iff :
    mask.covers .either separator path ↔
      mask.covers .whole separator path ∨ mask.covers .ancestor separator path := by
  simp only [covers, List.any_eq_true, ← exists_or, ← and_or_left]
  simp only [Extent.accepts, Bool.or_eq_true]

/-- A mask without wildcards describes itself alone. -/
theorem describes_iff_of_plain {text : Text} (noRun : '*' ∉ mask) (noSingle : '?' ∉ mask) :
    Describes mask text ↔ text = mask := by
  induction mask generalizing text with
  | nil => exact describes_nil
  | cons symbol mask inductionHypothesis =>
    rw [List.mem_cons, not_or] at noRun noSingle
    rw [describes_literal (Ne.symm noRun.1) (Ne.symm noSingle.1)]
    simp only [inductionHypothesis noRun.2 noSingle.2, exists_eq_right]

/-- A mask without wildcards covers itself and what is below itself, and nothing else. -/
theorem covers_either_iff_of_plain (noRun : '*' ∉ mask) (noSingle : '?' ∉ mask) :
    mask.covers .either separator path ↔ path = mask ∨ mask ++ [separator] <+: path := by
  simp only [covers_either_iff, covers_whole_iff, covers_ancestor_iff,
    describes_iff_of_plain noRun noSingle]
  refine or_congr_right ?_
  constructor
  · rintro ⟨_, below, rfl, rfl⟩
    exact ⟨below, List.append_cons .. |>.symm⟩
  · rintro ⟨below, rfl⟩
    exact ⟨mask, below, (List.append_cons ..).symm, rfl⟩

/-- Something below a folder is covered exactly when the folder is or the mask may begin with the
    folder and a separator. If the mask goes on beyond the separator, what it then describes is
    covered as a whole. -/
theorem exists_covers_below_iff :
    (∃ below, mask.covers .either separator (path ++ separator :: below)) ↔
      mask.covers .either separator path ∨ mask.mayBegin (path ++ [separator]) := by
  constructor
  · rintro ⟨below, covered⟩
    exact covers_above_or_mayBegin covered
  · rintro (above | begins)
    · exact ⟨[], covers_either_of_ancestor (covers_below [] above)⟩
    · obtain ⟨finish, described⟩ := mayBegin_iff.mp begins
      rw [List.append_assoc] at described
      exact ⟨finish, covers_either_iff.mpr (.inl (covers_whole_iff.mpr described))⟩

/-- Masks cover exactly what their language says. The whole of a path is covered when the mask
    describes it, a folder above it when the mask describes what stands before a separator,
    whatever follows, and either when one of the two holds. To search by trial for places where
    the stars of the mask may stop gives the same answer for every extent. -/
theorem covers_exact (mask : Mask) (separator : Char) (path : Text) :
    (mask.covers .whole separator path ↔ Describes mask path) ∧
      (mask.covers .ancestor separator path ↔
        ∃ folder below, path = folder ++ separator :: below ∧ Describes mask folder) ∧
      (mask.covers .either separator path ↔
        Describes mask path ∨
          ∃ folder below, path = folder ++ separator :: below ∧ Describes mask folder) ∧
      ∀ extent, mask.backtrack extent separator path = mask.covers extent separator path := by
  refine ⟨covers_whole_iff, covers_ancestor_iff, ?_, fun extent => ?_⟩
  · rw [covers_either_iff, covers_whole_iff, covers_ancestor_iff]
  · exact backtrack_eq_covers mask extent separator path

/-- A path may begin what a mask describes exactly when the mask covers the whole of the path with
    something behind it. So where the answer is no, there is nothing to go on with, and where it
    is yes, there is something. -/
theorem mayBegin_exact (mask : Mask) (separator : Char) (path : Text) :
    mask.mayBegin path ↔ ∃ finish, mask.covers .whole separator (path ++ finish) := by
  simp only [covers_whole_iff]
  exact mayBegin_iff

/-- The three extents agree along a path. A mask covers a path or a folder above it when it covers
    one of the two. The folders above an entry are the one that it is in and those above that one,
    and above a lone name there is none. Below a folder something is covered exactly when the
    folder or one above it is, or when the mask may begin with the folder and a separator, so that
    whatever is covered there is reached in one of these two ways. -/
theorem extents_agree_along_path (mask : Mask) (separator : Char) :
    (∀ path, mask.covers .either separator path ↔
        mask.covers .whole separator path ∨ mask.covers .ancestor separator path) ∧
      (∀ name, separator ∉ name →
        (∀ folder, mask.covers .ancestor separator (folder ++ separator :: name) ↔
          mask.covers .either separator folder) ∧
        mask.covers .ancestor separator name = false) ∧
      ∀ folder, (∃ below, mask.covers .either separator (folder ++ separator :: below)) ↔
        mask.covers .either separator folder ∨ mask.mayBegin (folder ++ [separator]) := by
  refine ⟨fun path => covers_either_iff, fun name plain => ?_, fun folder => ?_⟩
  · exact ⟨fun folder => covers_ancestor_entry plain, not_covers_ancestor_name plain⟩
  · exact exists_covers_below_iff

/-- What is in folders of settings. Such a folder is not covered, though something below it is. An
    entry in one is covered as a whole and not by a folder above it, what is in that entry by the
    entry, and the entry's name alone by no folder, whatever the last star of the mask may take. -/
theorem extents_agree_along_settings :
    let mask : Mask := "*.d/?*".toList
    '/' ∉ "a*".toList ∧
      mask.covers .either '/' "conf.d".toList = false ∧
      (∃ below, mask.covers .either '/' ("conf.d".toList ++ '/' :: below) = true) ∧
      mask.covers .whole '/' "conf.d/a*".toList = true ∧
      mask.covers .ancestor '/' "conf.d/a*".toList = false ∧
      mask.covers .either '/' "conf.d/a*".toList = true ∧
      mask.covers .ancestor '/' "conf.d/a*/a*".toList = true ∧
      mask.covers .ancestor '/' "a*".toList = false := by
  intro mask
  have plain : '/' ∉ "a*".toList := by decide
  have folder : mask.covers .either '/' "conf.d".toList = false := by decide +kernel
  have entry : mask.covers .whole '/' "conf.d/a*".toList = true := by decide +kernel
  have begins : mask.mayBegin ("conf.d".toList ++ ['/']) = true := by decide +kernel
  obtain ⟨toEither, entries, below⟩ := extents_agree_along_path mask '/'
  obtain ⟨inFolder, alone⟩ := entries "a*".toList plain
  have covered : mask.covers .either '/' "conf.d/a*".toList = true :=
    (toEither _).mpr (.inl entry)
  have notAbove : mask.covers .ancestor '/' "conf.d/a*".toList = false :=
    (Bool.eq_iff_iff.mpr (inFolder "conf.d".toList)).trans folder
  have above : mask.covers .ancestor '/' "conf.d/a*/a*".toList = true :=
    (inFolder "conf.d/a*".toList).mpr covered
  exact ⟨plain, folder, (below _).mpr (.inr begins), entry, notAbove, covered, above, alone⟩

end PathSieve.Mask
