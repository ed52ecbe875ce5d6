import PathSieve.Proofs.Pruning

/-!
# How a folder is judged

Rules ask their two selections in turn, stop at the first that decides, and look below a
folder only where a hint is wanted. Neither the order of the questions nor the wish for a
hint shows in the answer, as this module says.

`hint_keeps_answer` says of any sieve that the answer without a hint is the one that
comes with it, and that answer and hint never contradict each other. `verdict_eq_min` takes the
verdict of rules apart: it is the lesser of what the one selection says by what it lets
through and what the other says by what it holds back. From this form everything that
happens to rules when their selections grow follows by the laws of a chain.
-/

namespace PathSieve

namespace Verdict

/-- No verdict is stricter than to prune. -/
theorem min_prune (verdict : Verdict) : min verdict prune = prune := by
  cases verdict <;> rfl

/-- The lesser of a verdict and itself is that verdict. -/
theorem min_self (verdict : Verdict) : min verdict verdict = verdict := by
  cases verdict <;> rfl

/-- The least of three verdicts does not depend on which two are compared first. -/
theorem min_assoc (first second third : Verdict) :
    min (min first second) third = min first (min second third) := by
  apply eq_of_le_iff
  intro bound
  simp only [le_min_iff, and_assoc]

/-- The least of three verdicts does not depend on which of the later two comes first. -/
theorem min_right_comm (first second third : Verdict) :
    min (min first second) third = min (min first third) second := by
  apply eq_of_le_iff
  intro bound
  simp only [le_min_iff, and_right_comm]

/-- To cut the lesser of two verdicts down by a third is to cut down both. -/
theorem min_min_distrib_left (verdict first second : Verdict) :
    min verdict (min first second) = min (min verdict first) (min verdict second) := by
  apply eq_of_le_iff
  intro bound
  simp only [le_min_iff]
  exact and_and_left

/-- To cut the greater of two verdicts down by a third is to cut down both. -/
theorem min_max_distrib_right (first second verdict : Verdict) :
    min (max first second) verdict = max (min first verdict) (min second verdict) := by
  cases first <;> cases second <;> cases verdict <;> rfl

end Verdict

namespace Selection

/-- The verdict on a folder where a selection says what is let through and nothing is held
    back. -/
def includeVerdict (selection : Selection) (separator : Char) (path : Text) : Verdict :=
  if selection.coversFolder separator path then .pass
  else .reject (selection.mayCoverBelow separator path)

/-- The verdict on a folder where a selection says what is held back and all else is let
    through. -/
def excludeVerdict (selection : Selection) (separator : Char) (path : Text) : Verdict :=
  if selection.coversFolder separator path then .prune else .pass

end Selection

namespace Rules

/-- Rules give the lesser of the verdicts that their two selections give, the one by what it
    lets through and the other by what it holds back. -/
theorem verdict_eq_min (rules : Rules) (path : Text) :
    rules.verdict path =
      min (rules.included.includeVerdict rules.platform.separator
          (rules.platform.normalize path))
        (rules.excluded.excludeVerdict rules.platform.separator
          (rules.platform.normalize path)) := by
  rw [verdict, decision, judgeFolder, Selection.includeVerdict, Selection.excludeVerdict]
  -- The questions are taken in the order in which the judgement asks them.
  by_cases held : rules.excluded.coversFolder rules.platform.separator
      (rules.platform.normalize path)
  · simp only [held, if_true]
    exact (Verdict.min_prune _).symm
  · by_cases picked : rules.included.coversFolder rules.platform.separator
        (rules.platform.normalize path)
    · simp only [held, picked, if_true]
      rfl
    · simp only [held, picked, if_true]
      exact (Decision.verdict_reject _).trans (Verdict.min_pass _).symm

end Rules

namespace Sieve

/-- Asking for a hint never changes the answer. A folder goes through without a hint exactly
    when it does with one, however the sieve is nested, and then and only then the hint says
    nothing about what is below. -/
theorem hint_keeps_answer (sieve : Sieve) (path : Text) :
    sieve.passesFolder path = (sieve.decision path).passed ∧
      ((sieve.decision path).passed = true ↔ (sieve.decision path).hint = .notApplicable) := by
  have same : (sieve.decision path).passed = sieve.passesFolder path := passed_decision sieve path
  have coherent : (sieve.decision path).IsCoherent := isCoherent_decision sieve path
  exact ⟨same.symm, coherent⟩

end Sieve

end PathSieve
