import PathSieve.Proofs.Judgement
import PathSieve.Sieve.Order

/-!
# Sieves that answer alike

Two sieves agree when no question about any path tells them apart. Agreement is kept by
pairs, and it is coarser than equality: a pair agrees with either of two equal members, and
with the one member when the other lets everything through.

`combine` leaves members out of pairs on just these grounds, which `combine_cases` lists. So
what it makes agrees with the pair it was asked for, as `combine_agrees_with_both` says.
-/

namespace PathSieve

/-- The mask of a single `*` covers every path. -/
theorem Mask.covers_run (separator : Char) (path : Text) :
    Mask.covers ['*'] .either separator path :=
  Mask.covers_cons_run.mpr ⟨[], List.nil_suffix, rfl⟩

namespace Selection

/-- What picks everything picks every file. -/
@[simp] theorem coversFile_everything (separator : Char) (path : Text) :
    everything.coversFile separator path = true := by
  refine coversFile_iff.mpr ⟨.entry, ['*'], ?_, Mask.covers_run separator path⟩
  exact OrderedSet.mem_ofList.mpr (List.mem_singleton_self _)

/-- To let everything through is to let every folder through. -/
@[simp] theorem includeVerdict_everything (separator : Char) (path : Text) :
    everything.includeVerdict separator path = .pass := by
  have picked : everything.coversFolder separator path = true :=
    coversFolder_of_coversFile (coversFile_everything separator path)
  rw [includeVerdict, picked, if_pos rfl]

end Selection

namespace Rules

variable {rules : Rules} (path : Text)

/-- Rules known to let everything through let every file through. -/
theorem passesFile_of_isUnrestricted (free : rules.isUnrestricted) :
    rules.passesFile path = true := by
  rw [isUnrestricted_iff_eq.mp free]
  simp only [passesFile, unrestricted, Selection.coversFile_everything, Bool.and_true]
  rfl

/-- Rules known to let everything through let every folder through. -/
theorem verdict_of_isUnrestricted (free : rules.isUnrestricted) :
    rules.verdict path = .pass := by
  rw [verdict_eq_min, isUnrestricted_iff_eq.mp free]
  simp only [unrestricted, Selection.includeVerdict_everything]
  rfl

end Rules

namespace Sieve

/-- Two sieves give the same answers: which files go through, which folders do, and what a
    traversal is told about a folder. -/
structure Agrees (first second : Sieve) : Prop where
  file : ∀ path, first.passesFile path = second.passesFile path
  folder : ∀ path, first.passesFolder path = second.passesFolder path
  verdict : ∀ path, first.verdict path = second.verdict path

namespace Agrees

variable {first second third other : Sieve}

/-- The answer about a folder comes with the verdict, so sieves of the same verdicts that let
    the same files through agree. -/
theorem of_file_of_verdict (file : ∀ path, first.passesFile path = second.passesFile path)
    (verdict : ∀ path, first.verdict path = second.verdict path) : first.Agrees second where
  file := file
  folder := by
    intro path
    rw [← passed_verdict, verdict path, passed_verdict]
  verdict := verdict

/-- A sieve agrees with itself. -/
theorem refl (sieve : Sieve) : sieve.Agrees sieve :=
  ⟨fun _ => rfl, fun _ => rfl, fun _ => rfl⟩

/-- Agreement goes both ways. -/
theorem symm (agrees : first.Agrees second) : second.Agrees first :=
  ⟨fun path => (agrees.file path).symm, fun path => (agrees.folder path).symm,
    fun path => (agrees.verdict path).symm⟩

/-- Agreement is handed on. -/
theorem trans (agrees : first.Agrees second) (next : second.Agrees third) :
    first.Agrees third :=
  ⟨fun path => (agrees.file path).trans (next.file path),
    fun path => (agrees.folder path).trans (next.folder path),
    fun path => (agrees.verdict path).trans (next.verdict path)⟩

instance : Trans Agrees Agrees Agrees := ⟨trans⟩

/-- Pairs of sieves that agree member by member agree. -/
theorem both (agrees : first.Agrees second) (next : third.Agrees other) :
    (both first third).Agrees (both second other) := by
  apply of_file_of_verdict
  · intro path
    rw [passesFile, passesFile, agrees.file, next.file]
  · intro path
    rw [verdict_both, verdict_both, agrees.verdict, next.verdict]

end Agrees

section Pairs

variable (sieve : Sieve)

/-- A pair of two equal members agrees with either. -/
theorem both_self_agrees : (both sieve sieve).Agrees sieve := by
  apply Agrees.of_file_of_verdict
  · intro path
    rw [passesFile, Bool.and_self]
  · intro path
    rw [verdict_both, Verdict.min_self]

/-- A first member that lets everything through adds nothing to a pair. -/
theorem everything_both_agrees : (both everything sieve).Agrees sieve := by
  apply Agrees.of_file_of_verdict
  · intro path
    rw [passesFile, passesFile, Bool.true_and]
  · intro path
    rw [verdict_both, verdict_everything, Verdict.pass_min]

/-- A second member that lets everything through adds nothing to a pair. -/
theorem both_everything_agrees : (both sieve everything).Agrees sieve := by
  apply Agrees.of_file_of_verdict
  · intro path
    rw [passesFile, passesFile.eq_1, Bool.and_true]
  · intro path
    rw [verdict_both, verdict_everything, Verdict.min_pass]

/-- Of three sieves in nested pairs the later two may change places. -/
theorem both_right_comm_agrees (first second third : Sieve) :
    (both (both first second) third).Agrees (both (both first third) second) := by
  apply Agrees.of_file_of_verdict
  · intro path
    simp only [passesFile, Bool.and_right_comm]
  · intro path
    simp only [verdict_both, Verdict.min_right_comm]

end Pairs

/-- A sieve known to let everything through does let everything through. -/
theorem agrees_with_everything {sieve : Sieve} (free : sieve.isUnrestricted) :
    sieve.Agrees everything := by
  cases sieve with
  | everything => exact .refl everything
  | rules own =>
    have unrestricted : own.isUnrestricted := free
    apply Agrees.of_file_of_verdict
    · intro path
      exact Rules.passesFile_of_isUnrestricted path unrestricted
    · intro path
      exact Rules.verdict_of_isUnrestricted path unrestricted
  | both first second => exact absurd free (by simp [isUnrestricted])

section Unrestricted

variable {first second : Sieve}

/-- A pair whose first member is known to let everything through agrees with the second. -/
theorem both_agrees_with_second (free : first.isUnrestricted) :
    (both first second).Agrees second := calc
  (both first second).Agrees (both everything second) :=
    (agrees_with_everything free).both (.refl second)
  Agrees _ second := everything_both_agrees second

/-- A pair whose second member is known to let everything through agrees with the first. -/
theorem both_agrees_with_first (free : second.isUnrestricted) :
    (both first second).Agrees first := calc
  (both first second).Agrees (both first everything) :=
    (Agrees.refl first).both (agrees_with_everything free)
  Agrees _ first := both_everything_agrees first

end Unrestricted

/-- The five ways of combining two sieves: one or both are known to let everything through,
    they tie in the order of sieves, or a pair is made. -/
theorem combine_cases (first second : Sieve) :
    (first.isUnrestricted ∧ second.isUnrestricted ∧ combine first second = everything) ∨
    (first.isUnrestricted ∧ combine first second = second) ∨
    (second.isUnrestricted ∧ combine first second = first) ∨
    (compare first second = .eq ∧ combine first second = first) ∨
    combine first second = both first second := by
  by_cases firstFree : first.isUnrestricted
  · by_cases secondFree : second.isUnrestricted
    · exact .inl ⟨firstFree, secondFree, by simp [combine, firstFree, secondFree]⟩
    · exact .inr (.inl ⟨firstFree, by simp [combine, firstFree, secondFree]⟩)
  · by_cases secondFree : second.isUnrestricted
    · exact .inr (.inr (.inl ⟨secondFree, by simp [combine, firstFree, secondFree]⟩))
    · have compared : (first == second) = (compare first second == .eq) := rfl
      by_cases tie : compare first second = .eq
      · exact .inr (.inr (.inr (.inl ⟨tie, by simp [combine, firstFree, compared, tie]⟩)))
      · exact .inr (.inr (.inr (.inr (by simp [combine, firstFree, secondFree, compared, tie]))))

/-- What `combine` leaves out changes no answer: combined sieves answer every question as the
    pair of them does. -/
theorem combine_agrees_with_both (first second : Sieve) :
    (combine first second).Agrees (both first second) := by
  rcases combine_cases first second with ⟨firstFree, secondFree, result⟩ | ⟨firstFree, result⟩ |
    ⟨secondFree, result⟩ | ⟨tie, result⟩ | result
  · have pair : (both first second).Agrees everything :=
      (both_agrees_with_second firstFree).trans (agrees_with_everything secondFree)
    rw [result]
    exact pair.symm
  · rw [result]
    exact (both_agrees_with_second firstFree).symm
  · rw [result]
    exact (both_agrees_with_first secondFree).symm
  -- Only equal sieves tie, so that both members of the pair are the one that is kept.
  · obtain rfl : first = second := Std.LawfulEqOrd.eq_of_compare tie
    rw [result]
    exact (both_self_agrees first).symm
  · rw [result]
    exact .refl (both first second)

end Sieve

end PathSieve
