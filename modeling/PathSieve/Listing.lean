import PathSieve.Sieve

/-!
# Listings and traversals

A listing is what a folder holds: files and folders with names, the folders with
listings of their own. A traversal goes through a listing in its order, judges each
entry by its path from the root, and goes into the folders it chooses to enter. The
full traversal enters every folder; the pruned one only those in which the sieve's
decision leaves something to be found.
-/

namespace PathSieve

/-- The entries of a folder, in order. -/
inductive Listing where
  | nil
  | file (name : Text) (rest : Listing)
  | folder (name : Text) (entries rest : Listing)
deriving DecidableEq, Repr, Inhabited

namespace Listing

/-- Put a file or, with its entries, a folder at its place by name in a listing that is
    ascending by name. An entry that has the name already gives way. -/
def insert (name : Text) (entries? : Option Listing) : Listing → Listing
  | nil => entry nil
  | file other rest =>
    match compare name other with
    | .lt => entry (file other rest)
    | .eq => entry rest
    | .gt => file other (insert name entries? rest)
  | folder other entries rest =>
    match compare name other with
    | .lt => entry (folder other entries rest)
    | .eq => entry rest
    | .gt => folder other entries (insert name entries? rest)
where
  /-- The entry put in front of a rest. -/
  entry (rest : Listing) : Listing :=
    match entries? with
    | none => file name rest
    | some entries => folder name entries rest

/-- What a traversal found: the files and folders that went through, and the number of
    folders it entered. -/
structure Findings where
  files : List Text
  folders : List Text
  entered : Nat
deriving DecidableEq, Repr

namespace Findings

/-- Nothing found and nothing entered. -/
def nothing : Findings := ⟨[], [], 0⟩

/-- One file found, if it went through. -/
def file (path : Text) (passed : Bool) : Findings :=
  ⟨if passed then [path] else [], [], 0⟩

/-- One folder found, if it went through. -/
def folder (path : Text) (passed : Bool) : Findings :=
  ⟨[], if passed then [path] else [], 0⟩

/-- One folder entered. -/
def entry : Findings := ⟨[], [], 1⟩

/-- What was found first and what was found after it. -/
instance : Append Findings where
  append first second :=
    ⟨first.files ++ second.files, first.folders ++ second.folders,
      first.entered + second.entered⟩

@[simp] theorem files_append (first second : Findings) :
    (first ++ second).files = first.files ++ second.files := rfl

@[simp] theorem folders_append (first second : Findings) :
    (first ++ second).folders = first.folders ++ second.folders := rfl

@[simp] theorem entered_append (first second : Findings) :
    (first ++ second).entered = first.entered + second.entered := rfl

end Findings

/-- The path of an entry: its name at the root, otherwise the folder's path, the joining
    text and its name. -/
def childPath (joiner parent name : Text) : Text :=
  if parent.isEmpty then name else parent ++ joiner ++ name

/-- Go through a listing, entering the folders whose decision says so. -/
def search (enters : Decision → Bool) (sieve : Sieve) (joiner parent : Text) :
    Listing → Findings
  | nil => .nothing
  | file name rest =>
    let path := childPath joiner parent name
    .file path (sieve.passesFile path) ++ search enters sieve joiner parent rest
  | folder name entries rest =>
    let path := childPath joiner parent name
    let decision := sieve.decision path
    let below :=
      if enters decision then .entry ++ search enters sieve joiner path entries else .nothing
    .folder path decision.passed ++ below ++ search enters sieve joiner parent rest

/-- Traverse a listing from the root, entering every folder. -/
def searchAll (listing : Listing) (sieve : Sieve) (joiner : Text) : Findings :=
  .entry ++ search (fun _ => true) sieve joiner [] listing

/-- Traverse a listing from the root, entering a folder only if the decision on it says
    that something may be found there. -/
def searchPruned (listing : Listing) (sieve : Sieve) (joiner : Text) : Findings :=
  .entry ++ search Decision.shouldDescend sieve joiner [] listing

end Listing

end PathSieve
