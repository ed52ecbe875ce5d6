import PathSieve.Listing
import PathSieve.Sieve.Trace

/-!
# Traversals at work

A traversal together with the events of the questions it asks. It asks about every
entry once, about a folder before what is in it, and about what is in it before the
entries after it.

The main statements say that the trace is an addition and nothing more: a traced
traversal finds what the plain one finds.
-/

namespace PathSieve.Listing

/-- Go through a listing, entering the folders whose decision says so. -/
def searchTraced (enters : Decision → Bool) (sieve : Sieve) (joiner parent : Text) :
    Listing → Traced Findings
  | nil => pure .nothing
  | file name rest => do
    let path := childPath joiner parent name
    let passed ← sieve.passesFileTraced path
    let others ← searchTraced enters sieve joiner parent rest
    return .file path passed ++ others
  | folder name entries rest => do
    let path := childPath joiner parent name
    let decision ← sieve.decisionTraced path
    let below ←
      if enters decision then (.entry ++ ·) <$> searchTraced enters sieve joiner path entries
      else pure .nothing
    let others ← searchTraced enters sieve joiner parent rest
    return .folder path decision.passed ++ below ++ others

/-- Traverse a listing from the root, entering every folder. -/
def searchAllTraced (listing : Listing) (sieve : Sieve) (joiner : Text) : Traced Findings :=
  (.entry ++ ·) <$> searchTraced (fun _ => true) sieve joiner [] listing

/-- Traverse a listing from the root, entering a folder only if the decision on it says
    that something may be found there. -/
def searchPrunedTraced (listing : Listing) (sieve : Sieve) (joiner : Text) : Traced Findings :=
  (.entry ++ ·) <$> searchTraced Decision.shouldDescend sieve joiner [] listing

/-- A traced search finds what the plain one finds. -/
@[simp] theorem value_searchTraced (enters : Decision → Bool) (sieve : Sieve)
    (joiner parent : Text) (listing : Listing) :
    (searchTraced enters sieve joiner parent listing).value =
      search enters sieve joiner parent listing := by
  induction listing generalizing parent with
  | nil => rfl
  | file name rest restHypothesis =>
    simp only [searchTraced, search, Traced.value_bind, Traced.value_pure,
      Sieve.value_passesFileTraced, restHypothesis]
  | folder name entries rest entriesHypothesis restHypothesis =>
    rw [searchTraced, search, Traced.value_bind, Sieve.value_decisionTraced]
    cases enters (sieve.decision (childPath joiner parent name)) with
    | true => simp [entriesHypothesis, restHypothesis]
    | false => simp [restHypothesis]

/-- The traced full traversal finds what the plain one finds. -/
@[simp] theorem value_searchAllTraced (listing : Listing) (sieve : Sieve) (joiner : Text) :
    (listing.searchAllTraced sieve joiner).value = listing.searchAll sieve joiner := by
  rw [searchAllTraced, searchAll, Traced.value_map, value_searchTraced]

/-- The traced pruned traversal finds what the plain one finds. -/
@[simp] theorem value_searchPrunedTraced (listing : Listing) (sieve : Sieve) (joiner : Text) :
    (listing.searchPrunedTraced sieve joiner).value = listing.searchPruned sieve joiner := by
  rw [searchPrunedTraced, searchPruned, Traced.value_map, value_searchTraced]

end PathSieve.Listing
