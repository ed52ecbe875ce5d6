/-!
# Ordered sets

A finite set is held as its elements in strictly ascending order, so two sets
with the same elements are equal values. The order is any comparison that is
transitive and ties only on equal elements.

`mem_insert` and `mem_ofList` say which elements a set has, and `ext` that the
elements are all there is to a set: building one forgets order and repetition and
nothing else. Sets are ordered in turn, as sequences of their elements.
-/

namespace PathSieve

/-- A finite set, held as its elements in strictly ascending order. -/
structure OrderedSet (α : Type) [Ord α] where
  toList : List α
  ascending : toList.Pairwise fun first second => compare first second = .lt
deriving DecidableEq

namespace OrderedSet

variable {α : Type} [Ord α]

/-- The set without elements. -/
def empty : OrderedSet α := ⟨[], List.Pairwise.nil⟩

/-- The number of elements. -/
def size (set : OrderedSet α) : Nat := set.toList.length

/-- Whether there is no element. -/
def isEmpty (set : OrderedSet α) : Bool := set.toList.isEmpty

/-- Whether some element has a property. -/
def any (set : OrderedSet α) (holds : α → Bool) : Bool := set.toList.any holds

instance : Membership α (OrderedSet α) := ⟨fun set element => element ∈ set.toList⟩

/-- Membership is membership among the listed elements. -/
@[simp] theorem mem_toList {set : OrderedSet α} {element : α} :
    element ∈ set.toList ↔ element ∈ set := Iff.rfl

/-- The empty set has no elements. -/
@[simp] theorem not_mem_empty {element : α} : element ∉ (empty : OrderedSet α) :=
  List.not_mem_nil

/-- Some element has a property exactly when an element that has it exists. -/
@[simp] theorem any_eq_true {set : OrderedSet α} {holds : α → Bool} :
    set.any holds = true ↔ ∃ element ∈ set, holds element = true :=
  List.any_eq_true

/-- Whether some element ties with the given one. -/
def contains (set : OrderedSet α) (element : α) : Bool :=
  set.any fun other => compare element other == .eq

/-- Only the empty set has no element. -/
@[simp] theorem isEmpty_iff {set : OrderedSet α} : set.isEmpty ↔ set = empty := by
  cases set
  simp [isEmpty, empty]

/-- As only equal elements tie, a set contains its elements. -/
@[simp] theorem contains_iff [Std.LawfulEqOrd α] {set : OrderedSet α} {element : α} :
    set.contains element ↔ element ∈ set := by
  simp [contains]

/-- Put an element at its place in an ascending list, unless it is there. -/
def place (element : α) : List α → List α
  | [] => [element]
  | head :: rest =>
    match compare element head with
    | .lt => element :: head :: rest
    | .eq => head :: rest
    | .gt => head :: place element rest

/-- Placing adds exactly the placed element. -/
theorem mem_place [Std.LawfulEqOrd α] {element other : α} {list : List α} :
    other ∈ place element list ↔ other = element ∨ other ∈ list := by
  fun_induction place element list with
  | case1 => simp
  | case2 head rest before => simp
  | case3 head rest tie =>
    obtain rfl := Std.LawfulEqCmp.eq_of_compare tie
    simp
  | case4 head rest after inductionHypothesis =>
    simp [inductionHypothesis, or_left_comm]

/-- Placing keeps a list strictly ascending. -/
theorem place_ascending [Std.TransOrd α] [Std.LawfulEqOrd α] {element : α} {list : List α}
    (ascending : list.Pairwise fun first second => compare first second = .lt) :
    (place element list).Pairwise fun first second => compare first second = .lt := by
  fun_induction place element list with
  | case1 => simp
  | case2 head rest before =>
    refine List.Pairwise.cons ?_ ascending
    intro other member
    rcases List.mem_cons.mp member with rfl | member
    · exact before
    · exact Std.TransCmp.lt_trans before (List.rel_of_pairwise_cons ascending member)
  | case3 head rest tie => exact ascending
  | case4 head rest after inductionHypothesis =>
    refine List.Pairwise.cons ?_ (inductionHypothesis ascending.of_cons)
    intro other member
    rcases mem_place.mp member with rfl | member
    · exact Std.OrientedCmp.gt_iff_lt.mp after
    · exact List.rel_of_pairwise_cons ascending member

variable [Std.TransOrd α] [Std.LawfulEqOrd α]

/-- Add an element to a set. -/
def insert (set : OrderedSet α) (element : α) : OrderedSet α :=
  ⟨place element set.toList, place_ascending set.ascending⟩

/-- Add every element of a list to a set. -/
def insertMany (set : OrderedSet α) (elements : List α) : OrderedSet α :=
  elements.foldl insert set

/-- The set of the elements of a list. -/
def ofList (elements : List α) : OrderedSet α :=
  empty.insertMany elements

/-- An inserted element joins those that were there. -/
@[simp] theorem mem_insert {set : OrderedSet α} {element other : α} :
    other ∈ set.insert element ↔ other = element ∨ other ∈ set :=
  mem_place

/-- Many inserted elements join those that were there. -/
@[simp] theorem mem_insertMany {set : OrderedSet α} {elements : List α} {other : α} :
    other ∈ set.insertMany elements ↔ other ∈ elements ∨ other ∈ set := by
  induction elements generalizing set with
  | nil => simp [insertMany]
  | cons element elements inductionHypothesis =>
    have unfolded : set.insertMany (element :: elements) =
        (set.insert element).insertMany elements := rfl
    rw [unfolded, inductionHypothesis, mem_insert, List.mem_cons, or_left_comm, or_assoc]

/-- The set of a list has the elements of the list. -/
@[simp] theorem mem_ofList {elements : List α} {other : α} :
    other ∈ ofList elements ↔ other ∈ elements := by
  simp [ofList]

omit [Std.LawfulEqOrd α] in
/-- A strictly ascending list has no element twice. -/
theorem nodup_of_ascending {list : List α}
    (ascending : list.Pairwise fun first second => compare first second = .lt) : list.Nodup := by
  refine ascending.imp ?_
  rintro first second before rfl
  simp at before

omit [Std.LawfulEqOrd α] in
/-- Ascending lists with the same elements are the same list. -/
theorem eq_of_same_members {first second : List α}
    (firstAscending : first.Pairwise fun before after => compare before after = .lt)
    (secondAscending : second.Pairwise fun before after => compare before after = .lt)
    (same : ∀ element, element ∈ first ↔ element ∈ second) : first = second := by
  have permuted : first.Perm second :=
    (List.perm_ext_iff_of_nodup (nodup_of_ascending firstAscending)
      (nodup_of_ascending secondAscending)).mpr same
  refine permuted.eq_of_pairwise ?_ firstAscending secondAscending
  intro before after _ _ ascends descends
  exact absurd ascends (Std.OrientedCmp.not_lt_of_lt descends)

omit [Std.LawfulEqOrd α] in
/-- A set is determined by its elements. -/
theorem ext {first second : OrderedSet α}
    (same : ∀ element, element ∈ first ↔ element ∈ second) : first = second := by
  cases first with
  | mk firstList firstAscending =>
    cases second with
    | mk secondList secondAscending =>
      obtain rfl := eq_of_same_members firstAscending secondAscending same
      rfl

/-- A set of one element is the set of an element that it has. -/
theorem eq_ofList_singleton {set : OrderedSet α} {element : α} (single : set.size = 1)
    (member : element ∈ set) : set = ofList [element] := by
  obtain ⟨only, listed⟩ := List.length_eq_one_iff.mp single
  have same : element = only := by
    rw [← mem_toList, listed] at member
    exact List.mem_singleton.mp member
  refine ext fun other => ?_
  rw [mem_ofList, ← mem_toList, listed, same]

/-- Sets are compared as the sequences of their elements. -/
instance : Ord (OrderedSet α) where
  compare := compareOn toList

instance : Std.TransOrd (OrderedSet α) :=
  inferInstanceAs (Std.TransCmp (compareOn toList))

/-- Only equal sets tie. -/
instance : Std.LawfulEqOrd (OrderedSet α) where
  compare_self := fun {set} =>
    show compare set.toList set.toList = .eq from Std.ReflCmp.compare_self
  eq_of_compare := by
    intro first second tie
    have lists : first.toList = second.toList :=
      Std.LawfulEqCmp.eq_of_compare (show compare first.toList second.toList = .eq from tie)
    exact ext fun element => by rw [← mem_toList, lists, mem_toList]

end OrderedSet

end PathSieve
