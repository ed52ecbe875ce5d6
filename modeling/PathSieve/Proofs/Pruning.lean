import PathSieve.Proofs.Continuation
import PathSieve.Proofs.Meet

/-!
# What lies below a folder

A traversal that is told to leave a folder never sees what is below it. This module says
that it misses nothing: below a folder that a sieve prunes, no file and no folder goes
through. `passes_nothing_below_pruned` is that statement.

The argument goes up from masks. What a selection picks below a folder it either picks
with the folder or could pick beyond it, and what it picks it picks with everything
below. Rules prune a folder because it is held back, which is handed down, or because it
is not let through and nothing beyond it could be, which leaves no way to reach anything
below. Of a sieve that prunes, some rules do, and no path can do without them.
-/

namespace PathSieve

/-- How much of the path of a file a mask has to describe: a mask that speaks of folders
    only reaches a file through a folder above it. -/
def Scope.fileExtent : Scope → Extent
  | entry => .either
  | folder => .ancestor

/-- A mask that describes a folder above a file describes as much of it as any scope asks for. -/
theorem Mask.covers_fileExtent_of_ancestor {scope : Scope} {mask : Mask} {separator : Char}
    {path : Text} (covered : mask.covers .ancestor separator path) :
    mask.covers scope.fileExtent separator path := by
  cases scope with
  | entry => exact covers_either_of_ancestor covered
  | folder => exact covered

namespace Platform

/-- A character that ends the name of a folder: the separator, or the one read as it. -/
def IsSeparator (platform : Platform) (character : Char) : Prop :=
  character = platform.separator ∨ platform.alternate? = some character

instance (platform : Platform) (character : Char) : Decidable (platform.IsSeparator character) :=
  inferInstanceAs (Decidable (_ ∨ _))

/-- Both separators are spelled as the first one. -/
theorem normalizeChar_of_isSeparator {platform : Platform} {character : Char}
    (separates : platform.IsSeparator character) :
    platform.normalizeChar character = platform.separator := by
  rcases separates with rfl | alternate
  · cases platform <;> decide +kernel
  · simp [normalizeChar, alternate]

/-- The path of something below a folder is spelled with the separator behind the folder. -/
theorem normalize_below {platform : Platform} {joiner : Char}
    (separates : platform.IsSeparator joiner) (path below : Text) :
    platform.normalize (path ++ joiner :: below) =
      platform.normalize path ++ platform.separator :: platform.normalize below := by
  simp [normalize, normalizeChar_of_isSeparator separates]

end Platform

namespace Selection

variable {selection : Selection} {separator : Char} {path : Text}

/-- Some mask of either set has a property exactly when, for some scope, some mask of that
    scope has it. -/
theorem any_parts_iff (holds : Scope → Mask → Bool) :
    (selection.entry.any (holds .entry) || selection.folder.any (holds .folder)) = true ↔
      ∃ scope, ∃ mask ∈ selection.part scope, holds scope mask = true := by
  rw [Bool.or_eq_true, OrderedSet.any_eq_true, OrderedSet.any_eq_true]
  constructor
  · rintro (found | found)
    · exact ⟨.entry, found⟩
    · exact ⟨.folder, found⟩
  · rintro ⟨scope, found⟩
    cases scope with
    | entry => exact .inl found
    | folder => exact .inr found

/-- A file is picked by a mask that describes as much of it as its scope asks for. -/
theorem coversFile_iff : selection.coversFile separator path ↔
    ∃ scope, ∃ mask ∈ selection.part scope, mask.covers scope.fileExtent separator path :=
  any_parts_iff fun scope mask => mask.covers scope.fileExtent separator path

/-- A folder is picked by a mask of any scope that describes it or a folder above it. -/
theorem coversFolder_iff : selection.coversFolder separator path ↔
    ∃ scope, ∃ mask ∈ selection.part scope, mask.covers .either separator path :=
  any_parts_iff fun _ mask => mask.covers .either separator path

/-- Something below a folder might be picked by a mask that may begin with the folder and a
    separator. -/
theorem mayCoverBelow_iff : selection.mayCoverBelow separator path ↔
    ∃ scope, ∃ mask ∈ selection.part scope, mask.mayBegin (path ++ [separator]) :=
  any_parts_iff fun _ mask => mask.mayBegin (path ++ [separator])

/-- What picks a path as that of a file picks it as that of a folder. -/
theorem coversFolder_of_coversFile (picked : selection.coversFile separator path) :
    selection.coversFolder separator path := by
  obtain ⟨scope, mask, member, covered⟩ := coversFile_iff.mp picked
  refine coversFolder_iff.mpr ⟨scope, mask, member, ?_⟩
  cases scope with
  | entry => exact covered
  | folder => exact Mask.covers_either_of_ancestor covered

/-- With a folder every file below it is picked. -/
theorem coversFile_below (below : Text) (picked : selection.coversFolder separator path) :
    selection.coversFile separator (path ++ separator :: below) := by
  obtain ⟨scope, mask, member, covered⟩ := coversFolder_iff.mp picked
  have handedDown : mask.covers .ancestor separator (path ++ separator :: below) :=
    Mask.covers_below below covered
  exact coversFile_iff.mpr ⟨scope, mask, member, Mask.covers_fileExtent_of_ancestor handedDown⟩

/-- What is picked below a folder is picked with the folder or might be picked beyond it. -/
theorem coversFolder_or_mayCoverBelow {below : Text}
    (picked : selection.coversFolder separator (path ++ separator :: below)) :
    selection.coversFolder separator path ∨ selection.mayCoverBelow separator path := by
  obtain ⟨scope, mask, member, covered⟩ := coversFolder_iff.mp picked
  rcases Mask.covers_above_or_mayBegin covered with above | begins
  · exact .inl (coversFolder_iff.mpr ⟨scope, mask, member, above⟩)
  · exact .inr (mayCoverBelow_iff.mpr ⟨scope, mask, member, begins⟩)

end Selection

namespace Rules

/-- Below a folder that rules prune they let nothing through. What held the folder back holds
    back what is below it; otherwise nothing lets the folder through or could let through
    what is beyond it, so nothing lets through what is below. -/
theorem passes_nothing_below {rules : Rules} {joiner : Char} {path : Text}
    (separates : rules.platform.IsSeparator joiner)
    (pruned : (rules.verdict path).shouldDescend = false) (below : Text) :
    rules.passesFile (path ++ joiner :: below) = false ∧
      rules.passesFolder (path ++ joiner :: below) = false := by
  simp only [passesFile, passesFolder, passed_judgeFolder, Platform.normalize_below separates]
  rw [shouldDescend_verdict] at pruned
  generalize rules.platform.normalize path = folder at pruned ⊢
  generalize rules.platform.normalize below = rest
  cases held : rules.excluded.coversFolder rules.platform.separator folder with
  | true =>
    have fileHeld : rules.excluded.coversFile rules.platform.separator
        (folder ++ rules.platform.separator :: rest) := Selection.coversFile_below rest held
    have folderHeld : rules.excluded.coversFolder rules.platform.separator
        (folder ++ rules.platform.separator :: rest) :=
      Selection.coversFolder_of_coversFile fileHeld
    simp [fileHeld, folderHeld]
  | false =>
    have unpicked : (rules.included.coversFolder rules.platform.separator folder ||
        rules.included.mayCoverBelow rules.platform.separator folder) = false := by
      simpa [held] using pruned
    have unreached : ¬ rules.included.coversFolder rules.platform.separator
        (folder ++ rules.platform.separator :: rest) := by
      intro picked
      rcases Selection.coversFolder_or_mayCoverBelow picked with above | beyond
      · simp [above] at unpicked
      · simp [beyond] at unpicked
    have fileUnreached : ¬ rules.included.coversFile rules.platform.separator
        (folder ++ rules.platform.separator :: rest) := by
      intro picked
      exact unreached (Selection.coversFolder_of_coversFile picked)
    simp [unreached, fileUnreached]

end Rules

namespace Sieve

/-- A character that ends the name of a folder for all the rules of a sieve. -/
def IsSeparator (sieve : Sieve) (character : Char) : Prop :=
  ∀ own ∈ sieve.members, own.platform.IsSeparator character

instance (sieve : Sieve) (character : Char) : Decidable (sieve.IsSeparator character) :=
  inferInstanceAs (Decidable (∀ own ∈ sieve.members, own.platform.IsSeparator character))

/-- Below a folder neither a file nor a folder goes through. -/
def Barren (sieve : Sieve) (joiner : Char) (path : Text) : Prop :=
  ∀ below, sieve.passesFile (path ++ joiner :: below) = false ∧
    sieve.passesFolder (path ++ joiner :: below) = false

/-- A folder that a sieve prunes is barren. Some rules of the sieve give the verdict, and what
    these hold back the sieve holds back. -/
theorem barren_of_pruned {sieve : Sieve} {joiner : Char} {path : Text}
    (separates : sieve.IsSeparator joiner)
    (pruned : (sieve.verdict path).shouldDescend = false) : sieve.Barren joiner path := by
  intro below
  have held : sieve.verdict path ≠ .pass := by
    intro passes
    rw [passes] at pruned
    exact absurd pruned (by decide)
  obtain ⟨own, member, same⟩ := exists_member_verdict held
  have ownPruned : (own.verdict path).shouldDescend = false := by
    rw [same]
    exact pruned
  obtain ⟨fileHeld, folderHeld⟩ :=
    Rules.passes_nothing_below (separates own member) ownPruned below
  constructor
  · rw [passesFile_eq_all, List.all_eq_false]
    exact ⟨own, member, by simp [fileHeld]⟩
  · rw [passesFolder_eq_all, List.all_eq_false]
    exact ⟨own, member, by simp [folderHeld]⟩

/-- Where a sieve says not to enter a folder, nothing is lost: whatever follows the folder
    and a separator, no file and no folder of that path goes through. -/
theorem passes_nothing_below_pruned (sieve : Sieve) (path : Text) (joiner : Char)
    (separates : sieve.IsSeparator joiner)
    (pruned : (sieve.verdict path).shouldDescend = false) (below : Text) :
    sieve.passesFile (path ++ joiner :: below) = false ∧
      sieve.passesFolder (path ++ joiner :: below) = false :=
  barren_of_pruned separates pruned below

/-- Notes are looked for everywhere, but not where a build leaves its results. The first rules
    would have the folder entered, the second know it by another spelling. -/
theorem passes_nothing_below_build :
    let notes := rules (.compile .posix "*.md;src/".toList [])
    let lasting := rules (.compile .windows ['*'] "*\\build\\".toList)
    let sieve := both notes (both everything lasting)
    sieve.IsSeparator '/' ∧ notes.verdict "Build".toList = .descend ∧
      (sieve.verdict "Build".toList).shouldDescend = false ∧
      sieve.passesFile "Build/a/read.md".toList = false ∧
      sieve.passesFolder "Build/a/read.md".toList = false := by
  intro notes lasting sieve
  have separates : sieve.IsSeparator '/' := by decide +kernel
  have pruned : (sieve.verdict "Build".toList).shouldDescend = false := by decide +kernel
  exact ⟨separates, by decide +kernel, pruned,
    passes_nothing_below_pruned sieve "Build".toList '/' separates pruned "a/read.md".toList⟩

end Sieve

end PathSieve
