import PathSieve.Proofs.Agreement
import PathSieve.Proofs.Union

/-!
# Further exclusions

Exclusions that are added to a sieve go into the rules that stand leftmost in it, or become
rules of their own where nothing but a sieve that lets everything through stands there. This
module says that it might as well be rules beside the sieve that hold back the same and let
through all else: `excluding_agrees_with_both`. Only the spelling in which the phrases are
read depends on where they are put.

Rules that hold back more give the lesser of two verdicts, as the exclusions grow by a
union. That carries over to a sieve because the members of nested pairs may change places.
-/

namespace PathSieve

/-- A list that is a lone `*` selects everything, whatever the platform. -/
theorem Selection.ofText_run (platform : Platform) : ofText platform ['*'] = everything := by
  cases platform <;> decide +kernel

namespace Rules

/-- Rules made of a lone `*` and nothing to hold back are those that let everything through. -/
theorem compile_run_nil (platform : Platform) :
    compile platform ['*'] [] = unrestricted platform := by
  rw [compile, Selection.ofText_run]
  rfl

/-- With further exclusions rules let through a file that went through before and that the
    exclusions by themselves let through. -/
theorem passesFile_exclude (rules : Rules) (text path : Text) :
    (rules.exclude text).passesFile path =
      (rules.passesFile path && (compile rules.platform ['*'] text).passesFile path) := by
  have union := Selection.isUnion_insertText rules.excluded rules.platform text
  simp only [passesFile, exclude, compile, Selection.ofText_run,
    Selection.coversFile_everything, Bool.and_true]
  rw [union.coversFile_eq_or, Bool.not_or]
  ac_rfl

/-- With further exclusions rules give the lesser of the verdict they gave before and that of
    the exclusions by themselves. -/
theorem verdict_exclude (rules : Rules) (text path : Text) :
    (rules.exclude text).verdict path =
      min (rules.verdict path) ((compile rules.platform ['*'] text).verdict path) := by
  have union := Selection.isUnion_insertText rules.excluded rules.platform text
  simp only [verdict_eq_min, exclude, compile, Selection.ofText_run,
    Selection.includeVerdict_everything, Verdict.pass_min]
  rw [union.excludeVerdict_eq_min, Verdict.min_assoc]

end Rules

namespace Sieve

/-- The platform in whose spelling exclusions are read when they are added to a sieve: that of
    the rules that stand leftmost, or the given one where a sieve that lets everything through
    stands there. -/
def leadingPlatform (fallback : Platform) : Sieve → Platform
  | everything => fallback
  | rules own => own.platform
  | both first _ => first.leadingPlatform fallback

/-- Adding exclusions is asking rules that hold back the same in addition. It makes no
    difference that the exclusions are put into the leftmost rules, however deep these are
    buried, as long as the phrases are read in the spelling of those rules. -/
theorem excluding_agrees_with_both (sieve : Sieve) (platform : Platform) (text : Text) :
    (sieve.excluding platform text).Agrees
      (both sieve (rules (.compile (sieve.leadingPlatform platform) ['*'] text))) := by
  induction sieve with
  | everything => exact (everything_both_agrees _).symm
  | rules own =>
    apply Agrees.of_file_of_verdict
    · intro path
      exact own.passesFile_exclude text path
    · intro path
      rw [verdict_both]
      exact own.verdict_exclude text path
  | both first second firstHypothesis _ =>
    -- By hypothesis the exclusions stand beside the first member, where they are asked before
    -- the second; asked after it they give the same.
    let exclusions := rules (.compile (first.leadingPlatform platform) ['*'] text)
    calc
      (both (first.excluding platform text) second).Agrees (both (both first exclusions) second) :=
        firstHypothesis.both (.refl second)
      Agrees _ (both (both first second) exclusions) :=
        both_right_comm_agrees first exclusions second

end Sieve

end PathSieve
