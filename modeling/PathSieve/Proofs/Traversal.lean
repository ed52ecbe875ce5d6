import PathSieve.Listing
import PathSieve.Proofs.Pruning

/-!
# Pruned traversals

A pruned traversal enters fewer folders than a full one. `searchPruned_finds_all` says that
it finds the same files and the same folders in the same order all the same.

The two visit different sets of folders, so they are compared entry by entry. At a folder
that both enter the comparison goes on below it. At a folder that only the full
traversal enters the sieve prunes, and below such a folder even the full traversal finds
nothing, at any depth, as `search_barren` says.
-/

namespace PathSieve.Listing

/-- Whether every entry, at every depth, has a name that is not empty. -/
def isNamed : Listing → Bool
  | nil => true
  | file name rest => !name.isEmpty && rest.isNamed
  | folder name entries rest => !name.isEmpty && entries.isNamed && rest.isNamed

/-- One traversal finds what another finds and enters no more folders. -/
structure Findings.Spares (spare full : Findings) : Prop where
  files : spare.files = full.files
  folders : spare.folders = full.folders
  entered : spare.entered ≤ full.entered

namespace Findings

/-- What is found the same way on both sides spares nothing and loses nothing. -/
theorem Spares.refl (findings : Findings) : findings.Spares findings :=
  ⟨rfl, rfl, Nat.le_refl _⟩

/-- Traversals that spare in their parts spare in the whole. -/
theorem Spares.append {spare full spareNext fullNext : Findings} (first : spare.Spares full)
    (next : spareNext.Spares fullNext) : (spare ++ spareNext).Spares (full ++ fullNext) where
  files := by rw [files_append, files_append, first.files, next.files]
  folders := by rw [folders_append, folders_append, first.folders, next.folders]
  entered := Nat.add_le_add first.entered next.entered

/-- Not to look spares where there is nothing to be found. -/
theorem nothing_spares {full : Findings} (files : full.files = []) (folders : full.folders = []) :
    nothing.Spares full :=
  ⟨files.symm, folders.symm, Nat.zero_le _⟩

end Findings

/-- Below a folder the path of an entry is the folder's with the joiner and the name. -/
theorem childPath_of_ne_nil {joiner : Char} {parent : Text} (below : parent ≠ []) (name : Text) :
    childPath [joiner] parent name = parent ++ joiner :: name := by
  simp [childPath, below]

/-- An entry with a name has a path, whatever folder it is in. -/
theorem childPath_ne_nil {joiner : Char} {parent name : Text} (named : name ≠ []) :
    childPath [joiner] parent name ≠ [] := by
  unfold childPath
  split
  · exact named
  · simp

/-- What is below an entry of a barren folder is below the folder, so the entry is barren. -/
theorem barren_childPath {sieve : Sieve} {joiner : Char} {parent : Text} (below : parent ≠ [])
    (barren : sieve.Barren joiner parent) (name : Text) :
    sieve.Barren joiner (childPath [joiner] parent name) := by
  intro further
  rw [childPath_of_ne_nil below, List.append_assoc, List.cons_append]
  exact barren (name ++ joiner :: further)

/-- In a barren folder no traversal finds anything, whichever folders it enters: an entry
    does not go through, and what is below it is below the folder too. -/
theorem search_barren {enters : Decision → Bool} {sieve : Sieve} {joiner : Char} {parent : Text}
    {listing : Listing} (below : parent ≠ []) (barren : sieve.Barren joiner parent) :
    (search enters sieve [joiner] parent listing).files = [] ∧
      (search enters sieve [joiner] parent listing).folders = [] := by
  induction listing generalizing parent with
  | nil => exact ⟨rfl, rfl⟩
  | file name rest restHypothesis =>
    have held : sieve.passesFile (childPath [joiner] parent name) = false := by
      rw [childPath_of_ne_nil below]
      exact (barren name).1
    obtain ⟨restFiles, restFolders⟩ := restHypothesis below barren
    simp [search, held, Findings.file, restFiles, restFolders]
  | folder name entries rest entriesHypothesis restHypothesis =>
    have held : (sieve.decision (childPath [joiner] parent name)).passed = false := by
      rw [Sieve.passed_decision, childPath_of_ne_nil below]
      exact (barren name).2
    have onward : childPath [joiner] parent name ≠ [] := by
      simp [childPath_of_ne_nil below]
    obtain ⟨entriesFiles, entriesFolders⟩ :=
      entriesHypothesis onward (barren_childPath below barren name)
    obtain ⟨restFiles, restFolders⟩ := restHypothesis below barren
    cases entered : enters (sieve.decision (childPath [joiner] parent name)) with
    | false =>
      simp [search, held, entered, Findings.folder, Findings.nothing, restFiles, restFolders]
    | true =>
      simp [search, held, entered, Findings.folder, Findings.entry, entriesFiles,
        entriesFolders, restFiles, restFolders]

/-- Entering only the folders that the sieve does not prune spares, from any folder on. A
    folder that is pruned has a path, its name not being empty, so what is in it is below
    that path and the sieve's promise is about it. -/
theorem search_spares {sieve : Sieve} {joiner : Char} (separates : sieve.IsSeparator joiner)
    {listing : Listing} (named : listing.isNamed) (parent : Text) :
    (search Decision.shouldDescend sieve [joiner] parent listing).Spares
      (search (fun _ => true) sieve [joiner] parent listing) := by
  induction listing generalizing parent with
  | nil => exact .refl _
  | file name rest restHypothesis =>
    obtain ⟨_, restNamed⟩ := Bool.and_eq_true_iff.mp named
    exact (Findings.Spares.refl _).append (restHypothesis restNamed parent)
  | folder name entries rest entriesHypothesis restHypothesis =>
    obtain ⟨entryNamed, restNamed⟩ := Bool.and_eq_true_iff.mp named
    obtain ⟨nameGiven, entriesNamed⟩ := Bool.and_eq_true_iff.mp entryNamed
    let path := childPath [joiner] parent name
    have within : (if (sieve.decision path).shouldDescend then
          .entry ++ search Decision.shouldDescend sieve [joiner] path entries
        else .nothing : Findings).Spares
        (.entry ++ search (fun _ => true) sieve [joiner] path entries) := by
      cases descends : (sieve.decision path).shouldDescend with
      | true => exact (Findings.Spares.refl _).append (entriesHypothesis entriesNamed path)
      | false =>
        -- Only the full traversal enters, so it must be shown to come back with nothing.
        have onward : path ≠ [] := childPath_ne_nil (by simpa using nameGiven)
        have pruned : (sieve.verdict path).shouldDescend = false :=
          (Decision.shouldDescend_verdict _).trans descends
        obtain ⟨files, folders⟩ :
            (search (fun _ => true) sieve [joiner] path entries).files = [] ∧
              (search (fun _ => true) sieve [joiner] path entries).folders = [] :=
          search_barren onward (Sieve.barren_of_pruned separates pruned)
        exact Findings.nothing_spares files folders
    exact ((Findings.Spares.refl _).append within).append (restHypothesis restNamed parent)

/-- Leaving out the folders that a sieve prunes loses nothing: the pruned traversal finds the
    files and the folders of the full one in the same order, and enters at most as many
    folders. -/
theorem searchPruned_finds_all (listing : Listing) (sieve : Sieve) (joiner : Char)
    (named : listing.isNamed) (separates : sieve.IsSeparator joiner) :
    (listing.searchPruned sieve [joiner]).files = (listing.searchAll sieve [joiner]).files ∧
      (listing.searchPruned sieve [joiner]).folders =
        (listing.searchAll sieve [joiner]).folders ∧
      (listing.searchPruned sieve [joiner]).entered ≤
        (listing.searchAll sieve [joiner]).entered := by
  have whole : (listing.searchPruned sieve [joiner]).Spares (listing.searchAll sieve [joiner]) :=
    (Findings.Spares.refl .entry).append (search_spares separates named [])
  exact ⟨whole.files, whole.folders, whole.entered⟩

/-- Of five folders the pruned traversal enters three, the root, the sources and their tests. It
    finds the folder of the tests, which goes through with what is in it, and one more file. -/
theorem searchPruned_finds_sources :
    let sieve := Sieve.both (.rules (.compile .posix "src/*.rs;src/tests/".toList []))
      (.rules (.compile .windows ['*'] "*\\gen".toList))
    let listing := folder "docs".toList (file "a.rs".toList nil)
      (folder "src".toList (folder "gen".toList (file "b.rs".toList nil)
        (folder "tests".toList (file "data".toList nil) (file "c.rs".toList nil))) nil)
    listing.isNamed ∧ sieve.IsSeparator '/' ∧
      (listing.searchPruned sieve ['/']).files = ["src/tests/data".toList, "src/c.rs".toList] ∧
      (listing.searchAll sieve ['/']).files = ["src/tests/data".toList, "src/c.rs".toList] ∧
      (listing.searchPruned sieve ['/']).folders = ["src/tests".toList] ∧
      (listing.searchAll sieve ['/']).folders = ["src/tests".toList] ∧
      (listing.searchPruned sieve ['/']).entered = 3 ∧
      (listing.searchAll sieve ['/']).entered = 5 := by
  intro sieve listing
  have named : listing.isNamed := by decide
  have separates : sieve.IsSeparator '/' := by decide +kernel
  have foundFiles : (listing.searchPruned sieve ['/']).files =
      ["src/tests/data".toList, "src/c.rs".toList] := by
    decide +kernel
  have foundFolders : (listing.searchPruned sieve ['/']).folders = ["src/tests".toList] := by
    decide +kernel
  obtain ⟨files, folders, _⟩ := searchPruned_finds_all listing sieve '/' named separates
  exact ⟨named, separates, foundFiles, files ▸ foundFiles, foundFolders, folders ▸ foundFolders,
    by decide +kernel, by decide +kernel⟩

end PathSieve.Listing
