import Mathlib.Data.List.Destutter
import PathSieve.Proofs.History
import PathSieve.Sieve.Order

/-!
# Sieves in order

The order of sieves is good for keeping sieves apart: two sieves tie only if they are the same
sieve. `Sieve.Corresponds` says what that means without the order: the same shape and, at
corresponding places, rules with the same masks and the same platform. Since a set of masks is
determined by its members, sieves that correspond are equal, and since only equal sieves tie, so
are sieves that tie.

Sorting therefore has one result for every arrangement of a list. No two different sieves can
stand in either order, so neither the place of a sieve in the list nor the stability of the sort
shows in it; and a sieve that is given more than once stands in one run, so that dropping
repetitions leaves the ordered set of the sieves given. `order_identifies_and_sorts` puts this
together.
-/

namespace PathSieve

namespace Rules

/-- Rules have the same masks on either side, scope by scope, and the same platform. -/
structure Corresponds (first second : Rules) : Prop where
  included : ∀ scope mask,
    mask ∈ first.included.part scope ↔ mask ∈ second.included.part scope
  excluded : ∀ scope mask,
    mask ∈ first.excluded.part scope ↔ mask ∈ second.excluded.part scope
  platform : first.platform = second.platform

/-- There is nothing to rules but their masks and their platform. -/
theorem corresponds_iff_eq {first second : Rules} : first.Corresponds second ↔ first = second := by
  constructor
  · intro corresponds
    exact eq_of_parts (Selection.eq_of_parts corresponds.included)
      (Selection.eq_of_parts corresponds.excluded) corresponds.platform
  · rintro rfl
    exact ⟨fun _ _ => Iff.rfl, fun _ _ => Iff.rfl, rfl⟩

/-- The four sets of masks as ascending sequences: what is let through before what is held back,
    and on either side the masks for entries of any kind before those for folders. -/
def maskLists (rules : Rules) : List (List Mask) :=
  [rules.included.entry.toList, rules.included.folder.toList,
    rules.excluded.entry.toList, rules.excluded.folder.toList]

/-- Rules are compared by their sequences of masks, of which the first that differ decide, and
    where there are none by their platforms. -/
theorem compare_eq_maskLists (first second : Rules) :
    compare first second =
      (compare first.maskLists second.maskLists).then
        (compare first.platform second.platform) := by
  have inTurn : compare first second =
      ((compare first.included.entry.toList second.included.entry.toList).then
        (compare first.included.folder.toList second.included.folder.toList)).then
      (((compare first.excluded.entry.toList second.excluded.entry.toList).then
        (compare first.excluded.folder.toList second.excluded.folder.toList)).then
      (compare first.platform second.platform)) := rfl
  rw [inTurn]
  simp only [maskLists, List.compare_cons_cons, List.compare_nil_nil, Ordering.then_eq,
    Ordering.then_assoc]

end Rules

namespace Sieve

/-- Two sieves have one shape, and at corresponding places they have rules with the same masks
    and the same platform. -/
def Corresponds : Sieve → Sieve → Prop
  | everything, everything => True
  | rules own, rules other => own.Corresponds other
  | both first second, both otherFirst otherSecond =>
    first.Corresponds otherFirst ∧ second.Corresponds otherSecond
  | _, _ => False

/-- Sieves correspond when they are equal and not otherwise. -/
theorem corresponds_iff_eq {first second : Sieve} :
    first.Corresponds second ↔ first = second := by
  induction first generalizing second with
  | everything => cases second <;> simp [Corresponds]
  | rules own => cases second <;> simp [Corresponds, Rules.corresponds_iff_eq]
  | both left right leftHypothesis rightHypothesis =>
    cases second <;> simp [Corresponds, leftHypothesis, rightHypothesis]

/-- The sieves of a list at its ascending positions. -/
def sorted (sieves : List Sieve) : List Sieve :=
  (ascendingPositions sieves).filterMap (sieves[·]?)

/-- The ascending positions name every sieve of the list once: to read the list there is to sort
    it. -/
theorem sorted_eq_mergeSort (sieves : List Sieve) :
    sorted sieves = sieves.mergeSort fun first second => (compare first second).isLE := by
  let placedBefore (first second : Sieve × Nat) : Bool := (compare first.1 second.1).isLE
  have found : ∀ placed ∈ sieves.zipIdx.mergeSort placedBefore,
      sieves[placed.2]? = some placed.1 := by
    intro placed member
    exact List.mk_mem_zipIdx_iff_getElem?.mp (List.mem_mergeSort.mp member)
  calc sorted sieves
    _ = (sieves.zipIdx.mergeSort placedBefore).filterMap fun placed => sieves[placed.2]? :=
      List.filterMap_map
    _ = (sieves.zipIdx.mergeSort placedBefore).map Prod.fst := by
      rw [List.filterMap_congr found, List.filterMap_eq_map']
    _ = (sieves.zipIdx.map Prod.fst).mergeSort fun first second => (compare first second).isLE :=
      List.map_mergeSort fun _ _ _ _ => rfl
    _ = _ := by rw [List.zipIdx_map_fst]

/-- Sorting neither loses a sieve nor adds one. -/
theorem sorted_perm (sieves : List Sieve) : (sorted sieves).Perm sieves := by
  rw [sorted_eq_mergeSort]
  exact List.mergeSort_perm sieves _

/-- Of two sieves one does not come later than the other. -/
theorem isLE_total (first second : Sieve) :
    (compare first second).isLE ∨ (compare second first).isLE := by
  rw [Std.OrientedOrd.eq_swap (a := second) (b := first)]
  cases compare first second <;> decide

/-- Sieves that do not come later than each other are equal. -/
theorem eq_of_isLE_of_isLE {first second : Sieve} (before : (compare first second).isLE)
    (after : (compare second first).isLE) : first = second :=
  Std.LawfulEqOrd.eq_of_compare (Std.OrientedCmp.isLE_antisymm before after)

/-- In a sorted list no sieve comes later than one that stands behind it. -/
theorem sorted_ascending (sieves : List Sieve) :
    (sorted sieves).Pairwise fun first second => (compare first second).isLE := by
  rw [sorted_eq_mergeSort]
  refine List.pairwise_mergeSort (fun _ _ _ => Std.TransCmp.isLE_trans) ?_ sieves
  intro first second
  exact Bool.or_eq_true_iff.mpr (isLE_total first second)

/-- However a list is arranged, sorting it gives the same: two sorted arrangements cannot differ,
    as no two different sieves may stand in either order. -/
theorem sorted_eq_of_perm {given rearranged : List Sieve} (same : given.Perm rearranged) :
    sorted given = sorted rearranged := by
  have arranged : (sorted given).Perm (sorted rearranged) :=
    (sorted_perm given).trans (same.trans (sorted_perm rearranged).symm)
  exact arranged.eq_of_pairwise (fun _ _ _ _ => eq_of_isLE_of_isLE) (sorted_ascending given)
    (sorted_ascending rearranged)

/-- A sorted list from which every sieve is dropped that is equal to the one before it holds the
    ordered set of the sieves given. -/
theorem destutter_sorted (sieves : List Sieve) :
    (sorted sieves).destutter (· ≠ ·) = (OrderedSet.ofList sieves).toList := by
  have antisymmetric : Std.Antisymm fun first second : Sieve => (compare first second).isLE :=
    ⟨fun _ _ => eq_of_isLE_of_isLE⟩
  rw [(sorted_ascending sieves).destutter_eq_dedup]
  -- Of the sieves that are left no two are equal, so that each comes before all behind it.
  have strictly : (sorted sieves).dedup.Pairwise fun first second =>
      compare first second = .lt := by
    have ascending := (sorted_ascending sieves).sublist (List.dedup_sublist (sorted sieves))
    refine ascending.imp₂ ?_ (List.nodup_dedup (sorted sieves))
    intro first second before different
    cases compared : compare first second with
    | lt => rfl
    | eq => exact absurd (Std.LawfulEqOrd.eq_of_compare compared) different
    | gt =>
      rw [compared] at before
      exact absurd before (nofun)
  apply OrderedSet.eq_of_same_members strictly (OrderedSet.ofList sieves).ascending
  intro sieve
  rw [List.mem_dedup, (sorted_perm sieves).mem_iff, OrderedSet.mem_toList, OrderedSet.mem_ofList]

/-- The order of sieves is total and identifies them. Two sieves tie, and are found equal, when
    they have one shape with equal masks and platforms at corresponding places, and otherwise one
    of them comes first. The sieve that lets everything through comes before all rules and these
    before all pairs; rules are compared by their four ascending sequences of masks in turn and
    then by platform. So a list has one sorted form, whatever its arrangement, and dropping
    repetitions from it leaves the ordered set of the sieves given. -/
theorem order_identifies_and_sorts :
    ((∀ sieve : Sieve, compare sieve sieve = .eq) ∧
      (∀ first second : Sieve, (compare first second).isLE → (compare second first).isLE →
        first.Corresponds second) ∧
      (∀ first second third : Sieve, (compare first second).isLE → (compare second third).isLE →
        (compare first third).isLE) ∧
      ∀ first second : Sieve, (compare first second).isLE ∨ (compare second first).isLE) ∧
    (∀ first second : Sieve,
      (compare first second = .eq ↔ first.Corresponds second) ∧
        (first == second ↔ first.Corresponds second)) ∧
    (∀ (own : Rules) (first second : Sieve),
      compare everything (rules own) = .lt ∧ compare everything (both first second) = .lt ∧
        compare (rules own) (both first second) = .lt) ∧
    (∀ own other : Rules,
      compare (rules own) (rules other) =
          (compare own.maskLists other.maskLists).then (compare own.platform other.platform) ∧
        ∀ masks ∈ own.maskLists, masks.Pairwise fun first second =>
          compare first second = .lt) ∧
    ∀ given rearranged : List Sieve, given.Perm rearranged →
      (sorted given).Perm given ∧
        (sorted given).Pairwise (fun first second => (compare first second).isLE) ∧
        sorted given = sorted rearranged ∧
        (sorted given).destutter (· ≠ ·) = (OrderedSet.ofList rearranged).toList := by
  refine ⟨⟨fun _ => Std.ReflOrd.compare_self, ?_, ?_, isLE_total⟩, ?_, ?_, ?_, ?_⟩
  · intro first second before after
    exact corresponds_iff_eq.mpr (eq_of_isLE_of_isLE before after)
  · intro first second third before after
    exact Std.TransCmp.isLE_trans before after
  · intro first second
    rw [Std.LawfulEqOrd.compare_eq_iff_eq, beq_iff_eq, corresponds_iff_eq]
    exact ⟨Iff.rfl, Iff.rfl⟩
  · intro own first second
    exact ⟨order_of_rank_lt Nat.zero_lt_one, order_of_rank_lt Nat.zero_lt_two,
      order_of_rank_lt Nat.one_lt_two⟩
  · intro own other
    refine ⟨own.compare_eq_maskLists other, ?_⟩
    intro masks member
    simp only [Rules.maskLists, List.mem_cons, List.not_mem_nil, or_false] at member
    rcases member with rfl | rfl | rfl | rfl <;> exact OrderedSet.ascending _
  · intro given rearranged same
    have sorts : sorted given = sorted rearranged := sorted_eq_of_perm same
    refine ⟨sorted_perm given, sorted_ascending given, sorts, ?_⟩
    rw [sorts, destutter_sorted]

/-- Sieves of every kind, rules for sources among them twice with their phrases in another order
    and spelling. Both arrangements sort to the same, in which the sources stand once. -/
theorem sorted_sieves_of_every_kind :
    let folders := rules (.compile .posix "src/".toList [])
    let sources := rules (.compile .posix "src/;*.rs".toList "*.bak".toList)
    let respelled := rules (.compile .posix "*.rs\n src/* ".toList "*.bak".toList)
    let given := [both folders sources, sources, everything, respelled, folders]
    let rearranged := [folders, respelled, both folders sources, everything, sources]
    given.Perm rearranged ∧ sorted given = sorted rearranged ∧
      (sorted given).destutter (· ≠ ·) = [everything, folders, sources, both folders sources] := by
  intro folders sources respelled given rearranged
  have same : given.Perm rearranged := by decide +kernel
  obtain ⟨_, _, sorts, once⟩ := order_identifies_and_sorts.2.2.2.2 given rearranged same
  have set : (OrderedSet.ofList rearranged).toList =
      [everything, folders, sources, both folders sources] := by decide +kernel
  exact ⟨same, sorts, once.trans set⟩

end Sieve

end PathSieve
