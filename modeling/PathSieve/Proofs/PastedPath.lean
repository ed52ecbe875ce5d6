import PathSieve.Proofs.Anchoring
import PathSieve.Proofs.Folding
import PathSieve.Proofs.Matching

/-!
# Paths given as phrases

A user who wants to be rid of a file or a folder copies its path into the list of what is held
back. This module says that this does what is meant: `excluding_pasted_path` says that the path
is held back, as that of a file and as that of a folder, with everything below it, and that
a path in which nothing looks like a wildcard or a folder mark holds back nothing else.

The path is read as a phrase, and what was meant as a name may be read as something else. A `*`
or a `?` becomes a wildcard, which describes itself among other things. A separator at the end
becomes a folder mark, and the mask is then the name before it, which is that of a folder above
the path as it was written. Either way the path is covered to the extent that its mask asks for.
-/

namespace PathSieve

namespace Phrase

variable {separator : Char} {phrase name : Text}

/-- A phrase with a folder mark is the path of something below the folder that it names. -/
theorem IsMarked.exists_below (marked : IsMarked separator phrase name) :
    ∃ below, phrase = name ++ separator :: below :=
  marked.elim (fun plain => ⟨[], plain⟩) fun withRun => ⟨['*'], withRun⟩

/-- The mask of a phrase covers the phrase itself, read as the path of a file, unless the phrase
    is nothing but a folder mark. -/
theorem exists_covers_self (notRun : separator ≠ '*') (nonempty : phrase ≠ [])
    (relative : ∀ rest, phrase ≠ separator :: rest) :
    ∃ scope, ∃ mask ∈ (place separator phrase).part scope,
      mask.covers scope.fileExtent separator phrase := by
  by_cases marked : ∃ name, IsMarked separator phrase name
  · obtain ⟨name, mark⟩ := marked
    obtain ⟨below, split⟩ := mark.exists_below
    have named : name ≠ [] := by
      rintro rfl
      exact relative below split
    refine ⟨.folder, name, ?_, ?_⟩
    · rw [place_of_isMarked notRun mark]
      exact mem_unlessEmpty.mpr ⟨rfl, named⟩
    · exact Mask.covers_ancestor_iff.mpr ⟨name, below, split, Mask.describes_self name⟩
  · refine ⟨.entry, phrase, ?_, ?_⟩
    · exact (mem_entry_place notRun).mpr ⟨rfl, nonempty, not_exists.mp marked⟩
    · have whole : Mask.covers phrase .whole separator phrase :=
        Mask.covers_whole_iff.mpr (Mask.describes_self phrase)
      exact Mask.covers_either_iff.mpr (.inl whole)

end Phrase

namespace Platform

variable {platform : Platform} {path : Text}

/-- The spelling of a path begins with the separator only where the path begins with one. -/
theorem normalize_ne_separator_cons
    (relative : ∀ character ∈ path.head?, ¬ platform.IsSeparator character) (rest : Text) :
    platform.normalize path ≠ platform.separator :: rest := by
  intro spelled
  have split : platform.normalize path = [] ++ platform.separator :: rest := spelled
  obtain ⟨folder, joiner, _, rfl, separates, empty, _⟩ :=
    normalize_eq_append_separator_iff.mp split
  obtain rfl := List.map_eq_nil_iff.mp empty
  exact relative joiner rfl separates

/-- The spelling of a path ends with the separator only where the path ends with one. -/
theorem normalize_ne_append_separator
    (finish : ∀ character ∈ path.getLast?, ¬ platform.IsSeparator character) (before : Text) :
    platform.normalize path ≠ before ++ [platform.separator] := by
  intro spelled
  obtain ⟨folder, joiner, _, rfl, separates, _, empty⟩ :=
    normalize_eq_append_separator_iff.mp spelled
  obtain rfl := List.map_eq_nil_iff.mp empty
  exact finish joiner List.getLast?_concat separates

/-- The spelling of a text has a wildcard in it exactly when the text has. -/
theorem wildcard_mem_normalize_iff {wildcard : Char} (wild : wildcard = '*' ∨ wildcard = '?') :
    wildcard ∈ platform.normalize path ↔ wildcard ∈ path := by
  simp only [normalize, List.mem_map, normalizeChar_eq_wildcard_iff wild, exists_eq_right]

end Platform

/-- A path without a `*` and without separators at its ends is compiled as it is spelled. -/
theorem Phrase.compile_of_plain {platform : Platform} {path : Text} (nonempty : path ≠ [])
    (relative : ∀ character ∈ path.head?, ¬ platform.IsSeparator character)
    (finish : ∀ character ∈ path.getLast?, ¬ platform.IsSeparator character)
    (noRun : '*' ∉ path) : compile platform path = ⟨[platform.normalize path], []⟩ := by
  have noRunSpelled : '*' ∉ platform.normalize path :=
    (Platform.wildcard_mem_normalize_iff (.inl rfl)).not.mpr noRun
  have nonemptySpelled : platform.normalize path ≠ [] := List.map_eq_nil_iff.not.mpr nonempty
  have unmarked (name : Text) : ¬ IsMarked platform.separator (platform.normalize path) name := by
    rintro (plain | withRun)
    · exact Platform.normalize_ne_append_separator finish name plain
    · exact noRunSpelled (withRun ▸ by simp)
  have notAnyDepth (rest : Text) : platform.normalize path ≠ '*' :: platform.separator :: rest :=
    fun anyDepth => noRunSpelled (anyDepth ▸ List.mem_cons_self)
  rw [compile, anchorings_of_relative (Platform.normalize_ne_separator_cons relative) notAnyDepth]
  simp [Scoped.flatMap, place_of_not_isMarked platform.separator_ne_run unmarked, unlessEmpty,
    nonemptySpelled]

namespace Selection

variable {platform : Platform} {path : Text}

/-- A path that is given as a phrase is picked, as that of a file. -/
theorem coversFile_pasted (listable : Phrase.Listable path)
    (relative : ∀ character ∈ path.head?, ¬ platform.IsSeparator character) :
    (ofText platform path).coversFile platform.separator (platform.normalize path) := by
  have nonempty : platform.normalize path ≠ [] := List.map_eq_nil_iff.not.mpr listable.nonempty
  have relativeSpelled := Platform.normalize_ne_separator_cons relative
  obtain ⟨scope, mask, placed, covered⟩ :=
    Phrase.exists_covers_self platform.separator_ne_run nonempty relativeSpelled
  refine coversFile_iff.mpr ⟨scope, mask, ?_, covered⟩
  rw [mem_part_ofText_of_listable listable, Phrase.compile, Scoped.part_flatMap]
  exact List.mem_flatMap.mpr ⟨_, Phrase.mem_anchorings_self relativeSpelled, placed⟩

/-- A path without wildcards and without separators at its ends picks, when it is given as a
    phrase, nothing but itself and what is below itself. -/
theorem coversFolder_pasted_iff {other : Text} (listable : Phrase.Listable path)
    (relative : ∀ character ∈ path.head?, ¬ platform.IsSeparator character)
    (finish : ∀ character ∈ path.getLast?, ¬ platform.IsSeparator character)
    (noRun : '*' ∉ path) (noSingle : '?' ∉ path) :
    (ofText platform path).coversFolder platform.separator other ↔
      other = platform.normalize path ∨
        platform.normalize path ++ [platform.separator] <+: other := by
  have noRunSpelled : '*' ∉ platform.normalize path :=
    (Platform.wildcard_mem_normalize_iff (.inl rfl)).not.mpr noRun
  have noSingleSpelled : '?' ∉ platform.normalize path :=
    (Platform.wildcard_mem_normalize_iff (.inr rfl)).not.mpr noSingle
  rw [coversFolder_iff, ← Mask.covers_either_iff_of_plain noRunSpelled noSingleSpelled]
  simp only [mem_part_ofText_of_listable listable,
    Phrase.compile_of_plain listable.nonempty relative finish noRun]
  constructor
  · rintro ⟨scope, mask, member, covered⟩
    cases scope with
    | entry => exact List.mem_singleton.mp member ▸ covered
    | folder => exact absurd member List.not_mem_nil
  · exact fun covered => ⟨.entry, _, List.mem_singleton_self _, covered⟩

end Selection

namespace Rules

/-- Rules bar a path when they let neither a file nor a folder there through and have a traversal
    leave the folder. -/
structure Bars (rules : Rules) (path : Text) : Prop where
  file : rules.passesFile path = false
  folder : rules.passesFolder path = false
  verdict : rules.verdict path = .prune

/-- What is picked to be held back, as the path of a file, is barred. -/
theorem bars_of_coversFile {rules : Rules} {path : Text}
    (picked : rules.excluded.coversFile rules.platform.separator
      (rules.platform.normalize path)) : rules.Bars path := by
  have folderPicked := Selection.coversFolder_of_coversFile picked
  have pruned : rules.verdict path = .prune := by
    rw [verdict_eq_min, Selection.excludeVerdict, if_pos folderPicked, Verdict.min_prune]
  refine { file := ?_, folder := ?_, verdict := pruned }
  · rw [passesFile, picked]
    rfl
  · rw [← passed_verdict, pruned]
    rfl

/-- With a path that is picked to be held back everything below it is barred. -/
theorem bars_below_of_coversFile {rules : Rules} {path : Text} (below : Text)
    (picked : rules.excluded.coversFile rules.platform.separator
      (rules.platform.normalize path)) :
    rules.Bars (path ++ rules.platform.separator :: below) := by
  apply bars_of_coversFile
  rw [Platform.normalize_below (.inl rfl)]
  exact Selection.coversFile_below _ (Selection.coversFolder_of_coversFile picked)

/-- About a path that is not picked to be held back rules answer as if they held nothing back. -/
theorem answers_of_not_excluded {platform : Platform} {included excluded path : Text}
    (spared : (Selection.ofText platform excluded).coversFolder platform.separator
      (platform.normalize path) = false) :
    (compile platform included excluded).passesFile path =
        (compile platform included []).passesFile path ∧
      (compile platform included excluded).passesFolder path =
        (compile platform included []).passesFolder path ∧
      (compile platform included excluded).verdict path =
        (compile platform included []).verdict path := by
  have fileSpared : (Selection.ofText platform excluded).coversFile platform.separator
      (platform.normalize path) = false := by
    rw [← Bool.not_eq_true] at spared ⊢
    exact fun picked => spared (Selection.coversFolder_of_coversFile picked)
  have sameVerdict : (compile platform included excluded).verdict path =
      (compile platform included []).verdict path := by
    rw [verdict_compile_nil, verdict_eq_min]
    simp only [compile, Selection.excludeVerdict, spared]
    exact Verdict.min_pass _
  refine ⟨?_, ?_, sameVerdict⟩
  · rw [passesFile_compile_nil, passesFile]
    simp only [compile, fileSpared, Bool.not_false, Bool.true_and]
  · rw [← passed_verdict, ← passed_verdict, sameVerdict]

/-- A path that is given as what to hold back bars itself and everything below itself, as long as
    it can be a phrase of a list and does not begin with a separator; a `*` or a `?` in it, a
    separator at its end, or a separator and a `*` there, do not matter. Without any of these it
    holds back nothing else: about a path that is spelled neither as this one nor as one below
    it, the rules answer as if nothing were held back. -/
theorem excluding_pasted_path (platform : Platform) (included : Text) {path : Text}
    (nonempty : path ≠ []) (trimmed : Text.trim path = path)
    (undelimited : ';' ∉ path ∧ '\n' ∉ path)
    (relative : ∀ character ∈ path.head?, ¬ platform.IsSeparator character) :
    ((compile platform included path).Bars path ∧
      ∀ below, (compile platform included path).Bars (path ++ platform.separator :: below)) ∧
    ('*' ∉ path → '?' ∉ path → (∀ character ∈ path.getLast?, ¬ platform.IsSeparator character) →
      ∀ other, platform.normalize other ≠ platform.normalize path →
        ¬ platform.normalize path ++ [platform.separator] <+: platform.normalize other →
          (compile platform included path).passesFile other =
              (compile platform included []).passesFile other ∧
            (compile platform included path).passesFolder other =
              (compile platform included []).passesFolder other ∧
            (compile platform included path).verdict other =
              (compile platform included []).verdict other) := by
  have listable : Phrase.Listable path :=
    Phrase.listable_of_trim nonempty trimmed (Phrase.forall_not_isDelimiter_iff.mpr undelimited)
  constructor
  · have picked := Selection.coversFile_pasted listable relative
    exact ⟨bars_of_coversFile picked, fun below => bars_below_of_coversFile below picked⟩
  · intro noRun noSingle finish other apart notBelow
    apply answers_of_not_excluded
    rw [← Bool.not_eq_true, Selection.coversFolder_pasted_iff listable relative finish noRun noSingle]
    exact not_or.mpr ⟨apart, notBelow⟩

/-- A folder of photos is barred by its path, in any spelling, and an album beside it that is called
    almost alike is not. A path that reads as a phrase for any depth, with a wildcard and a folder
    mark, still bars itself and what is below itself. -/
theorem excluding_pasted_photos :
    let album := "Photos/Été 1".toList
    let pattern := "*/Photos?/*".toList
    Text.trim album = album ∧ Text.trim pattern = pattern ∧
      (compile .windows ['*'] album).Bars album ∧
      (compile .windows ['*'] album).Bars (album ++ '\\' :: "a.jpg".toList) ∧
      (compile .windows ['*'] album).passesFile "photos\\ÉTÉ 10".toList = true ∧
      (compile .windows ['*'] pattern).Bars pattern ∧
      (compile .windows ['*'] pattern).Bars (pattern ++ '\\' :: "a.jpg".toList) := by
  intro album pattern
  have albumTrimmed : Text.trim album = album := by decide +kernel
  have patternTrimmed : Text.trim pattern = pattern := by decide +kernel
  have albumRelative : ∀ character ∈ album.head?, ¬ Platform.windows.IsSeparator character := by
    rintro character ⟨⟩
    decide
  have patternRelative : ∀ character ∈ pattern.head?, ¬ Platform.windows.IsSeparator character := by
    rintro character ⟨⟩
    decide
  have albumFinish : ∀ character ∈ album.getLast?, ¬ Platform.windows.IsSeparator character := by
    rintro character ⟨⟩
    decide
  have free : (compile .windows ['*'] []).passesFile "photos\\ÉTÉ 10".toList = true := by
    decide +kernel
  obtain ⟨⟨albumBarred, albumBelow⟩, others⟩ := excluding_pasted_path .windows ['*']
    (by decide : album ≠ []) albumTrimmed (by decide) albumRelative
  obtain ⟨⟨patternBarred, patternBelow⟩, _⟩ := excluding_pasted_path .windows ['*']
    (by decide : pattern ≠ []) patternTrimmed (by decide) patternRelative
  obtain ⟨spared, _⟩ := others (by decide) (by decide) albumFinish "photos\\ÉTÉ 10".toList
    (by decide +kernel) (by decide +kernel)
  exact ⟨albumTrimmed, patternTrimmed, albumBarred, albumBelow "a.jpg".toList, spared.trans free,
    patternBarred, patternBelow "a.jpg".toList⟩

end Rules

end PathSieve
