import PathSieve.Proofs.Judgement

/-!
# Lists of phrases taken together

A list of phrases that is made of two others picks what either of them picks, and no phrase
has a say in what another one means. This module follows that from the masks of a joined
list up to what rules answer. `answers_of_joined_lists` says that joining what is let
through gives the greater verdict, joining what is held back the lesser.

A selection is asked three questions, and each asks whether there is a mask of some kind
in it. `IsUnion.exists_mask_iff` answers all of them for the union of two selections. What
rules answer follows from the form of their verdict as the lesser of two, because only one
of the two selections is a union.
-/

namespace PathSieve

namespace Selection

/-- A selection has the masks of two others, scope by scope, and no more. -/
def IsUnion (whole first second : Selection) : Prop :=
  ∀ scope mask, mask ∈ whole.part scope ↔ mask ∈ first.part scope ∨ mask ∈ second.part scope

/-- A selection that also picks what a list picks is the union with the selection of the list. -/
theorem isUnion_insertText (selection : Selection) (platform : Platform) (text : Text) :
    (selection.insertText platform text).IsUnion selection (ofText platform text) := by
  intro scope mask
  cases scope with
  | entry => simp [insertText, ofText, Scoped.map, Scoped.part, or_comm]
  | folder => simp [insertText, ofText, Scoped.map, Scoped.part, or_comm]

/-- Two lists joined with a delimiter select the union of what each selects. -/
theorem isUnion_ofText {delimiter : Char} (platform : Platform) (first second : Text)
    (parts : Phrase.isDelimiter delimiter) :
    (ofText platform (first ++ delimiter :: second)).IsUnion (ofText platform first)
      (ofText platform second) := by
  rw [← insertText_ofText platform first second parts]
  exact isUnion_insertText (ofText platform first) platform second

namespace IsUnion

variable {whole first second : Selection} (union : whole.IsUnion first second)
variable (separator : Char) (path : Text)
include union

/-- A mask of some kind is found in a union exactly when it is found in one of the parts. -/
theorem exists_mask_iff (holds : Scope → Mask → Prop) :
    (∃ scope, ∃ mask ∈ whole.part scope, holds scope mask) ↔
      (∃ scope, ∃ mask ∈ first.part scope, holds scope mask) ∨
        ∃ scope, ∃ mask ∈ second.part scope, holds scope mask := by
  constructor
  · rintro ⟨scope, mask, member, found⟩
    rcases (union scope mask).mp member with member | member
    · exact .inl ⟨scope, mask, member, found⟩
    · exact .inr ⟨scope, mask, member, found⟩
  · rintro (⟨scope, mask, member, found⟩ | ⟨scope, mask, member, found⟩)
    · exact ⟨scope, mask, (union scope mask).mpr (.inl member), found⟩
    · exact ⟨scope, mask, (union scope mask).mpr (.inr member), found⟩

/-- A union picks the files that either part picks. -/
theorem coversFile_eq_or : whole.coversFile separator path =
    (first.coversFile separator path || second.coversFile separator path) := by
  rw [Bool.eq_iff_iff, Bool.or_eq_true]
  simp only [coversFile_iff]
  exact union.exists_mask_iff _

/-- A union picks the folders that either part picks. -/
theorem coversFolder_eq_or : whole.coversFolder separator path =
    (first.coversFolder separator path || second.coversFolder separator path) := by
  rw [Bool.eq_iff_iff, Bool.or_eq_true]
  simp only [coversFolder_iff]
  exact union.exists_mask_iff _

/-- A union might pick something below a folder where either part might. -/
theorem mayCoverBelow_eq_or : whole.mayCoverBelow separator path =
    (first.mayCoverBelow separator path || second.mayCoverBelow separator path) := by
  rw [Bool.eq_iff_iff, Bool.or_eq_true]
  simp only [mayCoverBelow_iff]
  exact union.exists_mask_iff _

/-- To let through what either of two selections picks gives the greater of their verdicts. -/
theorem includeVerdict_eq_max : whole.includeVerdict separator path =
    max (first.includeVerdict separator path) (second.includeVerdict separator path) := by
  rw [includeVerdict, includeVerdict, includeVerdict, union.coversFolder_eq_or,
    union.mayCoverBelow_eq_or]
  -- What is left is a table of the answers that the two parts give to two questions.
  cases first.coversFolder separator path <;> cases second.coversFolder separator path <;>
    cases first.mayCoverBelow separator path <;> cases second.mayCoverBelow separator path <;> rfl

/-- To hold back what either of two selections picks gives the lesser of their verdicts. -/
theorem excludeVerdict_eq_min : whole.excludeVerdict separator path =
    min (first.excludeVerdict separator path) (second.excludeVerdict separator path) := by
  rw [excludeVerdict, excludeVerdict, excludeVerdict, union.coversFolder_eq_or]
  cases first.coversFolder separator path <;> cases second.coversFolder separator path <;> rfl

end IsUnion

end Selection

namespace Rules

section Unions

variable {whole first second : Selection} (union : whole.IsUnion first second)
variable (other : Selection) (platform : Platform) (path : Text)
include union

/-- Rules that let through a union give the greater of the verdicts for its parts. -/
theorem verdict_of_included_union :
    verdict ⟨whole, other, platform⟩ path =
      max (verdict ⟨first, other, platform⟩ path) (verdict ⟨second, other, platform⟩ path) := by
  simp only [verdict_eq_min]
  rw [union.includeVerdict_eq_max, Verdict.min_max_distrib_right]

/-- Rules that let through a union let a file through when those for either part do. -/
theorem passesFile_of_included_union :
    passesFile ⟨whole, other, platform⟩ path =
      (passesFile ⟨first, other, platform⟩ path || passesFile ⟨second, other, platform⟩ path) := by
  simp only [passesFile]
  rw [union.coversFile_eq_or, Bool.and_or_distrib_left]

/-- Rules that hold back a union give the lesser of the verdicts for its parts. -/
theorem verdict_of_excluded_union :
    verdict ⟨other, whole, platform⟩ path =
      min (verdict ⟨other, first, platform⟩ path) (verdict ⟨other, second, platform⟩ path) := by
  simp only [verdict_eq_min]
  rw [union.excludeVerdict_eq_min, Verdict.min_min_distrib_left]

/-- Rules that hold back a union let a file through when those for both parts do. -/
theorem passesFile_of_excluded_union :
    passesFile ⟨other, whole, platform⟩ path =
      (passesFile ⟨other, first, platform⟩ path && passesFile ⟨other, second, platform⟩ path) := by
  simp only [passesFile]
  rw [union.coversFile_eq_or, Bool.not_or]
  ac_rfl

end Unions

/-- Lists of phrases act as unions. Where the list of what is let through is joined from two
    with a semicolon or a line break, the verdict is the greater of those for either list and
    a file goes through when it does for either; where the list of what is held back is
    joined, the verdict is the lesser and a file goes through when it does for both. -/
theorem answers_of_joined_lists (platform : Platform) (first second other path : Text)
    {joiner : Char} (joins : joiner = ';' ∨ joiner = '\n') :
    ((compile platform (first ++ joiner :: second) other).verdict path =
        max ((compile platform first other).verdict path)
          ((compile platform second other).verdict path) ∧
      (compile platform (first ++ joiner :: second) other).passesFile path =
        ((compile platform first other).passesFile path ||
          (compile platform second other).passesFile path)) ∧
    (compile platform other (first ++ joiner :: second)).verdict path =
        min ((compile platform other first).verdict path)
          ((compile platform other second).verdict path) ∧
      (compile platform other (first ++ joiner :: second)).passesFile path =
        ((compile platform other first).passesFile path &&
          (compile platform other second).passesFile path) := by
  have parts : Phrase.isDelimiter joiner := by
    rcases joins with rfl | rfl <;> decide
  have union : (Selection.ofText platform (first ++ joiner :: second)).IsUnion
      (Selection.ofText platform first) (Selection.ofText platform second) :=
    Selection.isUnion_ofText platform first second parts
  constructor
  · exact ⟨verdict_of_included_union union _ platform path,
      passesFile_of_included_union union _ platform path⟩
  · exact ⟨verdict_of_excluded_union union _ platform path,
      passesFile_of_excluded_union union _ platform path⟩

/-- A phrase for sources asks for the folder to be entered, another names it by its last letter.
    Joined to be let through they let it through, joined to be held back they hold it back. -/
theorem verdict_of_lists_joined_by_line_break :
    let sources := "src/*.rs".toList
    let names := "*c".toList
    let generated := "src/*/gen".toList
    (compile .windows sources generated).verdict "Src".toList = .descend ∧
      (compile .windows (sources ++ '\n' :: names) generated).verdict "Src".toList = .pass ∧
      (compile .windows generated sources).verdict "Src".toList = .descend ∧
      (compile .windows generated (sources ++ '\n' :: names)).verdict "Src".toList = .prune := by
  intro sources names generated
  have entered : (compile .windows sources generated).verdict "Src".toList = .descend := by
    decide +kernel
  have named : (compile .windows names generated).verdict "Src".toList = .pass := by
    decide +kernel
  have enteredStill : (compile .windows generated sources).verdict "Src".toList = .descend := by
    decide +kernel
  have heldBack : (compile .windows generated names).verdict "Src".toList = .prune := by
    decide +kernel
  obtain ⟨⟨greater, _⟩, lesser, _⟩ := answers_of_joined_lists .windows sources names generated
    "Src".toList (.inr rfl : '\n' = ';' ∨ '\n' = '\n')
  rw [entered, named] at greater
  rw [enteredStill, heldBack] at lesser
  exact ⟨entered, greater, enteredStill, lesser⟩

end Rules

end PathSieve
