import PathSieve.Text.Basic

/-!
# Scopes

A mask either speaks of entries of any kind, files and folders alike, or of
folders only. Whatever comes in both kinds, such as the masks of a phrase or the
mask sets of a rule, is held as a `Scoped` pair with one part for each kind.
-/

namespace PathSieve

/-- What kind of entry a mask speaks of. -/
inductive Scope where
  /-- Files and folders. -/
  | entry
  /-- Folders only. -/
  | folder
deriving DecidableEq, Repr

/-- The word for a scope. -/
def Scope.label : Scope → Text
  | entry => "file-or-folder".toList
  | folder => "folder-only".toList

/-- Scopes are ordered with the wider one first. -/
instance : Ord Scope where
  compare
    | .entry, .folder => .lt
    | .folder, .entry => .gt
    | _, _ => .eq

/-- One part for each scope. -/
structure Scoped (α : Type) where
  entry : α
  folder : α
deriving DecidableEq, Repr

namespace Scoped

variable {α β : Type}

/-- The part for a scope. -/
def part (pair : Scoped α) : Scope → α
  | .entry => pair.entry
  | .folder => pair.folder

/-- Work on both parts alike. -/
def map (change : α → β) (pair : Scoped α) : Scoped β :=
  ⟨change pair.entry, change pair.folder⟩

/-- The parts of many scoped lists, joined scope by scope. -/
def flatMap (produce : α → Scoped (List β)) (items : List α) : Scoped (List β) :=
  ⟨items.flatMap fun item => (produce item).entry,
    items.flatMap fun item => (produce item).folder⟩

/-- Working on both parts alike works on each. -/
@[simp] theorem part_map (change : α → β) (pair : Scoped α) (scope : Scope) :
    (pair.map change).part scope = change (pair.part scope) := by
  cases scope <;> rfl

/-- Joining many scoped lists joins their parts. -/
@[simp] theorem part_flatMap (produce : α → Scoped (List β)) (items : List α) (scope : Scope) :
    (flatMap produce items).part scope = items.flatMap fun item => (produce item).part scope := by
  cases scope <;> rfl

/-- The items of both parts with their scopes, those of entry scope first. -/
def labelled (pair : Scoped (List α)) : List (Scope × α) :=
  pair.entry.map (Scope.entry, ·) ++ pair.folder.map (Scope.folder, ·)

/-- An item is labelled with a scope exactly when it is in the part for that scope. -/
@[simp] theorem mem_labelled {pair : Scoped (List α)} {scope : Scope} {item : α} :
    (scope, item) ∈ pair.labelled ↔ item ∈ pair.part scope := by
  cases scope <;> simp [labelled, part]

/-- Pairs are compared by the part for entries, then by the part for folders. -/
instance [Ord α] : Ord (Scoped α) where
  compare := compareLex (compareOn entry) (compareOn folder)

instance [Ord α] [Std.TransOrd α] : Std.TransOrd (Scoped α) :=
  inferInstanceAs (Std.TransCmp (compareLex (compareOn entry) (compareOn folder)))

/-- Only equal pairs tie. -/
instance [Ord α] [Std.LawfulEqOrd α] : Std.LawfulEqOrd (Scoped α) where
  compare_self := by
    intro pair
    change (compare pair.entry pair.entry).then (compare pair.folder pair.folder) = .eq
    simp
  eq_of_compare := by
    intro first second tie
    obtain ⟨entries, folders⟩ := Ordering.then_eq_eq.mp
      (show (compare first.entry second.entry).then
        (compare first.folder second.folder) = .eq from tie)
    cases first
    cases second
    obtain rfl := Std.LawfulEqCmp.eq_of_compare entries
    obtain rfl := Std.LawfulEqCmp.eq_of_compare folders
    rfl

end Scoped

end PathSieve
