import PathSieve.Proofs.Matching
import PathSieve.Proofs.Spelling

/-!
# Masks for folders alone

A mask for folders reaches a file through a folder above it. Where rules have no other masks,
on either side, the name of a file has no say in whether the file goes through: it does exactly
when the folder does that it is in, and a file that is in no folder does not go through. This
is what `answers_of_folder_masks` says.

`answers_at_one_path` says what such masks do among others. Rules answer alike for a file and for
a folder of the same path, unless a mask for folders describes that very path: one that
describes a folder above it speaks for both.

The folders above a file are the folder that it is in and those above that one, because behind
the last separator there is nothing but a name. The masks themselves may end in stars or take
separators for their wildcards; it is the path that decides where they can stop.
-/

namespace PathSieve

namespace Selection

variable {selection : Selection} {separator : Char} {name : Text}

/-- A selection without masks for entries of any kind picks a file in a folder exactly when it
    picks the folder. -/
theorem coversFile_of_no_entries (noEntries : selection.entry = .empty)
    (plain : separator ∉ name) (path : Text) :
    selection.coversFile separator (path ++ separator :: name) =
      selection.coversFolder separator path := by
  have sameMasks (mask : Mask) : mask.covers .ancestor separator (path ++ separator :: name) =
      mask.covers .either separator path :=
    Bool.eq_iff_iff.mpr (Mask.covers_ancestor_entry plain)
  simp only [coversFile, coversFolder, noEntries, sameMasks]
  rfl

/-- Such a selection picks no file that is in no folder. -/
theorem not_coversFile_of_no_entries (noEntries : selection.entry = .empty)
    (plain : separator ∉ name) : selection.coversFile separator name = false := by
  rw [← Bool.not_eq_true, coversFile_iff]
  rintro ⟨scope, mask, member, covered⟩
  cases scope with
  | entry =>
    have inEntries : mask ∈ selection.entry := member
    rw [noEntries] at inEntries
    exact OrderedSet.not_mem_empty inEntries
  | folder => exact Bool.false_ne_true ((Mask.not_covers_ancestor_name plain).symm.trans covered)

/-- A folder is picked where a file of the same path would be, and besides where a mask for folders
    describes the whole of that path. -/
theorem coversFolder_iff_coversFile_or {path : Text} : selection.coversFolder separator path ↔
    selection.coversFile separator path ∨
      ∃ mask ∈ selection.folder, mask.covers .whole separator path := by
  constructor
  · rw [coversFolder_iff]
    rintro ⟨scope, mask, member, covered⟩
    cases scope with
    | entry => exact .inl (coversFile_iff.mpr ⟨.entry, mask, member, covered⟩)
    | folder =>
      rcases Mask.covers_either_iff.mp covered with whole | above
      · exact .inr ⟨mask, member, whole⟩
      · exact .inl (coversFile_iff.mpr ⟨.folder, mask, member, above⟩)
  · rintro (picked | ⟨mask, member, whole⟩)
    · exact coversFolder_of_coversFile picked
    · exact coversFolder_iff.mpr ⟨.folder, mask, member, Mask.covers_either_iff.mpr (.inl whole)⟩

end Selection

namespace Platform

variable {platform : Platform} {text : Text}

/-- A text without slashes of either kind has no separators of any platform. -/
theorem not_isSeparator_of_mem (noSlash : '/' ∉ text) (noBackslash : '\\' ∉ text) :
    ∀ character ∈ text, ¬ platform.IsSeparator character := by
  intro character member separates
  rcases eq_slash_of_isSeparator separates with rfl | rfl
  · exact noSlash member
  · exact noBackslash member

/-- The spelling of a text without separators has none either. -/
theorem separator_not_mem_normalize
    (plain : ∀ character ∈ text, ¬ platform.IsSeparator character) :
    platform.separator ∉ platform.normalize text := by
  intro member
  obtain ⟨character, within, spelled⟩ := List.mem_map.mp member
  exact plain character within (normalizeChar_eq_separator_iff.mp spelled)

end Platform

namespace Rules

/-- Rules that have masks for folders only, both in what they let through and in what they hold
    back, see no more of a file than the folder it is in. Under any name the file goes through
    exactly when that folder does, and by a name alone no file goes through. -/
theorem answers_of_folder_masks {rules : Rules} (included : rules.included.entry = .empty)
    (excluded : rules.excluded.entry = .empty) {name : Text}
    (plain : ∀ character ∈ name, ¬ rules.platform.IsSeparator character) :
    (∀ path, rules.passesFile (path ++ rules.platform.separator :: name) =
        rules.passesFolder path) ∧
      rules.passesFile name = false := by
  have spelledPlain : rules.platform.separator ∉ rules.platform.normalize name :=
    Platform.separator_not_mem_normalize plain
  constructor
  · intro path
    rw [passesFile, passesFolder, passed_judgeFolder, Platform.normalize_below (.inl rfl)]
    simp only [Selection.coversFile_of_no_entries included spelledPlain,
      Selection.coversFile_of_no_entries excluded spelledPlain]
  · simp only [passesFile, Selection.not_coversFile_of_no_entries included spelledPlain,
      Bool.and_false]

/-- Manuals and sources without what is old. A file among the manuals goes through and one that is
    old does not, whatever they are called, and a file that is called as the manuals are is not
    one of them. -/
theorem answers_of_manual_folders :
    let own := compile .windows "Manuals/;*/src*/*".toList "*\\Old*\\".toList
    own.included.entry = .empty ∧ own.excluded.entry = .empty ∧
      (∀ character ∈ "*.old".toList, ¬ Platform.windows.IsSeparator character) ∧
      own.passesFolder "manuals/2024".toList = true ∧
      own.passesFile "manuals/2024\\*.old".toList = true ∧
      own.passesFolder "manuals/Older".toList = false ∧
      own.passesFile "manuals/Older\\*.old".toList = false ∧
      own.passesFolder "manuals".toList = true ∧
      own.passesFile "manuals".toList = false := by
  intro own
  have included : own.included.entry = .empty := by decide +kernel
  have excluded : own.excluded.entry = .empty := by decide +kernel
  have plain : ∀ character ∈ "*.old".toList, ¬ own.platform.IsSeparator character :=
    Platform.not_isSeparator_of_mem (by decide) (by decide)
  have lonePlain : ∀ character ∈ "manuals".toList, ¬ own.platform.IsSeparator character :=
    Platform.not_isSeparator_of_mem (by decide) (by decide)
  have current : own.passesFolder "manuals/2024".toList = true := by decide +kernel
  have outdated : own.passesFolder "manuals/Older".toList = false := by decide +kernel
  obtain ⟨inFolder, _⟩ := answers_of_folder_masks included excluded plain
  obtain ⟨_, alone⟩ := answers_of_folder_masks included excluded lonePlain
  have currentFile : own.passesFile "manuals/2024\\*.old".toList = true :=
    (inFolder "manuals/2024".toList).trans current
  have outdatedFile : own.passesFile "manuals/Older\\*.old".toList = false :=
    (inFolder "manuals/Older".toList).trans outdated
  exact ⟨included, excluded, plain, current, currentFile, outdated, outdatedFile,
    by decide +kernel, alone⟩

variable {rules : Rules} {path : Text}

/-- A file goes through that nothing picks to be held back and something picks to be let through. -/
theorem passesFile_iff : rules.passesFile path ↔
    ¬ rules.excluded.coversFile rules.platform.separator (rules.platform.normalize path) ∧
      rules.included.coversFile rules.platform.separator (rules.platform.normalize path) := by
  simp [passesFile]

/-- A folder goes through that nothing picks to be held back and something picks to be let
    through. -/
theorem passesFolder_iff : rules.passesFolder path ↔
    ¬ rules.excluded.coversFolder rules.platform.separator (rules.platform.normalize path) ∧
      rules.included.coversFolder rules.platform.separator (rules.platform.normalize path) := by
  simp [passesFolder]

/-- Where a file goes through, a folder does not exactly when a mask for folders that describes the
    whole path holds it back. What lets the file through lets the folder through as well, and
    nothing that would have to hold back the file is there. -/
theorem not_passesFolder_iff_of_passesFile (passes : rules.passesFile path) :
    ¬ rules.passesFolder path ↔ ∃ mask ∈ rules.excluded.folder,
      mask.covers .whole rules.platform.separator (rules.platform.normalize path) := by
  obtain ⟨notHeld, picked⟩ := passesFile_iff.mp passes
  have folderPicked := Selection.coversFolder_of_coversFile picked
  rw [passesFolder_iff, and_iff_left folderPicked, Decidable.not_not,
    Selection.coversFolder_iff_coversFile_or, or_iff_right notHeld]

/-- Where a folder goes through and a file does not, a mask for folders that describes the whole
    path lets the folder through. Nothing holds the file back, since it would hold back the
    folder, so there is nothing that lets the file through. -/
theorem exists_included_of_passesFolder (passes : rules.passesFolder path)
    (fileStays : ¬ rules.passesFile path) : ∃ mask ∈ rules.included.folder,
      mask.covers .whole rules.platform.separator (rules.platform.normalize path) := by
  obtain ⟨notHeld, picked⟩ := passesFolder_iff.mp passes
  have fileNotHeld := mt Selection.coversFolder_of_coversFile notHeld
  have fileNotPicked := fun filePicked => fileStays (passesFile_iff.mpr ⟨fileNotHeld, filePicked⟩)
  exact (Selection.coversFolder_iff_coversFile_or.mp picked).resolve_left fileNotPicked

/-- Rules tell a file from a folder of the same path only by masks for folders that describe the
    path as it is spelled. Where the file goes through, the folder stays behind exactly when such
    a mask holds it back; where only the folder goes through, such a mask lets it through.
    Rules without masks for folders do not tell the two apart. -/
theorem answers_at_one_path (rules : Rules) :
    (∀ path, rules.passesFile path = true →
        (rules.passesFolder path = false ↔ ∃ mask ∈ rules.excluded.folder,
          mask.covers .whole rules.platform.separator (rules.platform.normalize path) = true)) ∧
      (∀ path, rules.passesFolder path = true → rules.passesFile path = false →
        ∃ mask ∈ rules.included.folder,
          mask.covers .whole rules.platform.separator (rules.platform.normalize path) = true) ∧
      (rules.included.folder = .empty → rules.excluded.folder = .empty →
        ∀ path, rules.passesFile path = rules.passesFolder path) := by
  simp only [← Bool.not_eq_true]
  refine ⟨fun path => not_passesFolder_iff_of_passesFile,
    fun path => exists_included_of_passesFolder, ?_⟩
  intro noneIncluded noneExcluded path
  rw [Bool.eq_iff_iff]
  constructor
  · intro passes
    refine Decidable.byContradiction fun folderStays => ?_
    obtain ⟨mask, member, _⟩ := (not_passesFolder_iff_of_passesFile passes).mp folderStays
    rw [noneExcluded] at member
    exact OrderedSet.not_mem_empty member
  · intro passes
    refine Decidable.byContradiction fun fileStays => ?_
    obtain ⟨mask, member, _⟩ := exists_included_of_passesFolder passes fileStays
    rw [noneIncluded] at member
    exact OrderedSet.not_mem_empty member

/-- Builds and text files without what is old. A text file that is called old goes through where a
    folder of that name does not, a folder of builds where a file of that name does not, and by
    the text files alone nothing is told apart. -/
theorem answers_at_path_of_old_texts :
    let own := compile .windows "Build/;*.txt".toList "*old*/".toList
    let texts := compile .windows "*.txt".toList "*old*".toList
    own.passesFile "notes/Old.txt".toList = true ∧
      own.passesFolder "notes/Old.txt".toList = false ∧
      (∃ mask ∈ own.excluded.folder, mask.covers .whole '\\' "NOTES\\OLD.TXT".toList = true) ∧
      own.passesFolder "build".toList = true ∧
      own.passesFile "build".toList = false ∧
      (∃ mask ∈ own.included.folder, mask.covers .whole '\\' "BUILD".toList = true) ∧
      texts.included.folder = .empty ∧
      texts.excluded.folder = .empty ∧
      texts.passesFile "notes/Old.txt".toList = texts.passesFolder "notes/Old.txt".toList := by
  intro own texts
  have file : own.passesFile "notes/Old.txt".toList = true := by decide +kernel
  have noFolder : own.passesFolder "notes/Old.txt".toList = false := by decide +kernel
  have folder : own.passesFolder "build".toList = true := by decide +kernel
  have noFile : own.passesFile "build".toList = false := by decide +kernel
  have noneIncluded : texts.included.folder = .empty := by decide +kernel
  have noneExcluded : texts.excluded.folder = .empty := by decide +kernel
  obtain ⟨held, picked, _⟩ := answers_at_one_path own
  obtain ⟨_, _, alike⟩ := answers_at_one_path texts
  have spelledFile : own.platform.normalize "notes/Old.txt".toList =
      "NOTES\\OLD.TXT".toList := by decide +kernel
  have spelledFolder : own.platform.normalize "build".toList = "BUILD".toList := by decide +kernel
  exact ⟨file, noFolder, spelledFile ▸ (held _ file).mp noFolder, folder, noFile,
    spelledFolder ▸ picked _ folder noFile, noneIncluded, noneExcluded,
    alike noneIncluded noneExcluded _⟩

end Rules

end PathSieve
