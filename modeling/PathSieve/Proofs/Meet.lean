import PathSieve.Sieve

/-!
# Pairs of sieves and the rules they ask

A sieve is a tree with rules at its leaves. Its pairs judge a folder by cases, and a second
member may not be asked at all, so it is not plain to see that the order and the
grouping of the members do not matter. This module says that they do not.

`Verdict.least` is the least of any number of verdicts. `verdict_eq_least` says that a sieve
gives the least verdict of its rules, beside `passesFile_eq_all` and
`passesFolder_eq_all` for the answers without a hint. What a sieve answers is thereby a
matter of which rules it asks, and of nothing else in it.
-/

namespace PathSieve

namespace Verdict

/-- Every verdict is at most the one that lets a folder through. -/
theorem le_pass (verdict : Verdict) : verdict ≤ pass := by
  cases verdict <;> decide

/-- The lesser of two verdicts is the greatest that is at most either. -/
theorem le_min_iff {bound first second : Verdict} :
    bound ≤ min first second ↔ bound ≤ first ∧ bound ≤ second := by
  cases bound <;> cases first <;> cases second <;> decide

/-- Letting a folder through adds nothing to another verdict. -/
theorem min_pass (verdict : Verdict) : min verdict pass = verdict := by
  cases verdict <;> rfl

/-- A verdict that lets a folder through leaves the matter to another. -/
theorem pass_min (verdict : Verdict) : min pass verdict = verdict := by
  cases verdict <;> rfl

/-- Verdicts that are at most each other are equal: the chain has one verdict of each rank. -/
theorem le_antisymm {first second : Verdict} (below : first ≤ second) (above : second ≤ first) :
    first = second := by
  revert below above
  cases first <;> cases second <;> decide

/-- Verdicts are equal when the same verdicts are at most either. -/
theorem eq_of_le_iff {first second : Verdict}
    (same : ∀ bound : Verdict, bound ≤ first ↔ bound ≤ second) : first = second :=
  le_antisymm ((same first).mp (Nat.le_refl _)) ((same second).mpr (Nat.le_refl _))

/-- The lesser of two verdicts is one of them. -/
theorem min_eq_or (first second : Verdict) :
    min first second = first ∨ min first second = second := by
  cases first <;> cases second <;> decide

/-- Where one member of a pair only sees something below a folder, the other decides whether
    the folder is entered, and both together give the lesser of the two verdicts. -/
theorem reject_shouldDescend (verdict : Verdict) :
    reject verdict.shouldDescend = min descend verdict := by
  cases verdict <;> rfl

/-- The least of some verdicts. Without any, nothing keeps a folder from going through. -/
def least (verdicts : List Verdict) : Verdict := verdicts.foldr min pass

theorem least_cons (verdict : Verdict) (verdicts : List Verdict) :
    least (verdict :: verdicts) = min verdict (least verdicts) := rfl

/-- A verdict is at most the least of some verdicts exactly when it is at most each. -/
theorem le_least_iff {bound : Verdict} {verdicts : List Verdict} :
    bound ≤ least verdicts ↔ ∀ verdict ∈ verdicts, bound ≤ verdict := by
  induction verdicts with
  | nil => simp [least, le_pass]
  | cons verdict verdicts inductionHypothesis =>
    rw [least_cons, le_min_iff, inductionHypothesis, List.forall_mem_cons]

/-- The least verdict of two lists together is the lesser of their least verdicts. -/
theorem least_append (first second : List Verdict) :
    least (first ++ second) = min (least first) (least second) := by
  apply eq_of_le_iff
  intro bound
  simp only [le_least_iff, le_min_iff, List.mem_append, or_imp, forall_and]

/-- The least of some verdicts does not depend on their order or their repetition. -/
theorem least_congr {first second : List Verdict}
    (same : ∀ verdict, verdict ∈ first ↔ verdict ∈ second) : least first = least second := by
  apply eq_of_le_iff
  intro bound
  simp only [le_least_iff, same]

/-- The least of some verdicts lets a folder through or is one of them. -/
theorem least_eq_pass_or_mem (verdicts : List Verdict) :
    least verdicts = pass ∨ least verdicts ∈ verdicts := by
  induction verdicts with
  | nil => exact .inl rfl
  | cons verdict verdicts inductionHypothesis =>
    rw [least_cons]
    rcases min_eq_or verdict (least verdicts) with chosen | chosen
    · rw [chosen]
      exact .inr List.mem_cons_self
    · rw [chosen]
      exact inductionHypothesis.imp_right (List.mem_cons_of_mem verdict)

end Verdict

/-- The verdict of rules lets a folder through exactly when their answer without a hint does. -/
theorem Rules.passed_verdict (rules : Rules) (path : Text) :
    (rules.verdict path).passed = rules.passesFolder path := by
  rw [verdict, Decision.passed_verdict, decision, passesFolder, passed_judgeFolder,
    passed_judgeFolder]

namespace Sieve

/-- The tests by which a pair judges a folder give the lesser verdict of its members. -/
theorem verdict_both (first second : Sieve) (path : Text) :
    (both first second).verdict path = min (first.verdict path) (second.verdict path) := by
  rw [verdict, decision]
  by_cases passed : (first.decision path).passed
  · have passes : first.verdict path = .pass := if_pos passed
    rw [if_pos passed, passes]
    exact (Verdict.pass_min _).symm
  rw [if_neg passed]
  by_cases promising : (first.decision path).hint = .descendantMayMatch
  · have descends : first.verdict path = .descend :=
      (if_neg passed).trans (if_pos promising)
    rw [promising, descends, if_neg (by decide), Decision.verdict_reject,
      ← Decision.shouldDescend_verdict]
    exact Verdict.reject_shouldDescend _
  · have prunes : first.verdict path = .prune := (if_neg passed).trans (if_neg promising)
    rw [if_pos (bne_iff_ne.mpr promising), prunes]
    change first.verdict path = _
    rw [prunes]
    cases second.verdict path <;> rfl

/-- A file goes through a sieve when it goes through all the rules. -/
theorem passesFile_eq_all (sieve : Sieve) (path : Text) :
    sieve.passesFile path = sieve.members.all (·.passesFile path) := by
  induction sieve with
  | everything => rfl
  | rules own => simp [passesFile, members]
  | both first second firstHypothesis secondHypothesis =>
    rw [passesFile, members, List.all_append, firstHypothesis, secondHypothesis]

/-- A folder goes through a sieve when it goes through all the rules. -/
theorem passesFolder_eq_all (sieve : Sieve) (path : Text) :
    sieve.passesFolder path = sieve.members.all (·.passesFolder path) := by
  induction sieve with
  | everything => rfl
  | rules own => simp [passesFolder, members]
  | both first second firstHypothesis secondHypothesis =>
    rw [passesFolder, members, List.all_append, firstHypothesis, secondHypothesis]

/-- A sieve gives the least verdict of the rules it asks. -/
theorem verdict_eq_least (sieve : Sieve) (path : Text) :
    sieve.verdict path = Verdict.least (sieve.members.map (·.verdict path)) := by
  induction sieve with
  | everything => rfl
  | rules own => exact (Verdict.min_pass (own.verdict path)).symm
  | both first second firstHypothesis secondHypothesis =>
    rw [verdict_both, members, List.map_append, Verdict.least_append, firstHypothesis,
      secondHypothesis]

/-- A verdict that does not let a folder through is the verdict of some of the rules. -/
theorem exists_member_verdict {sieve : Sieve} {path : Text}
    (held : sieve.verdict path ≠ .pass) :
    ∃ rules ∈ sieve.members, rules.verdict path = sieve.verdict path := by
  rw [verdict_eq_least] at held ⊢
  have attained := (Verdict.least_eq_pass_or_mem _).resolve_left held
  exact List.mem_map.mp attained

/-- A verdict lets a folder through exactly when the answer without a hint does. -/
theorem passed_verdict (sieve : Sieve) (path : Text) :
    (sieve.verdict path).passed = sieve.passesFolder path := by
  induction sieve with
  | everything => rfl
  | rules own => exact own.passed_verdict path
  | both first second firstHypothesis secondHypothesis =>
    rw [verdict_both, Verdict.passed_min, firstHypothesis, secondHypothesis, passesFolder]

/-- What a traversal is told lets a folder through exactly when the answer without a hint does. -/
theorem passed_decision (sieve : Sieve) (path : Text) :
    (sieve.decision path).passed = sieve.passesFolder path := by
  rw [← passed_verdict, verdict, Decision.passed_verdict]

/-- What a sieve answers is the meet of what its rules answer: a file or a folder goes
    through when it goes through all of them, and the verdict is their least one, which is
    to let the folder through where there are no rules. So sieves that ask the same rules
    give the same answers, however these are grouped, ordered or repeated. -/
theorem answers_eq_meet_of_members (sieve : Sieve) :
    (∀ path, sieve.passesFile path = sieve.members.all (·.passesFile path)) ∧
      (∀ path, sieve.passesFolder path = sieve.members.all (·.passesFolder path)) ∧
      (∀ path, sieve.verdict path = Verdict.least (sieve.members.map (·.verdict path))) ∧
      ∀ other : Sieve, (∀ own, own ∈ other.members ↔ own ∈ sieve.members) →
        ∀ path, other.passesFile path = sieve.passesFile path ∧
          other.passesFolder path = sieve.passesFolder path ∧
          other.verdict path = sieve.verdict path := by
  refine ⟨passesFile_eq_all sieve, passesFolder_eq_all sieve, verdict_eq_least sieve, ?_⟩
  intro other same path
  have sameAll (answers : Rules → Bool) :
      other.members.all answers = sieve.members.all answers := by
    rw [Bool.eq_iff_iff]
    simp only [List.all_eq_true, same]
  have sameVerdicts (verdict : Verdict) : verdict ∈ other.members.map (·.verdict path) ↔
      verdict ∈ sieve.members.map (·.verdict path) := by
    simp only [List.mem_map, same]
  refine ⟨?_, ?_, ?_⟩
  · rw [passesFile_eq_all, passesFile_eq_all, sameAll]
  · rw [passesFolder_eq_all, passesFolder_eq_all, sameAll]
  · rw [verdict_eq_least, verdict_eq_least, Verdict.least_congr sameVerdicts]

/-- Rules may change places, come twice and be joined with a sieve that lets everything
    through: a folder in which sources may be found is entered all the same. -/
theorem verdict_of_regrouped_members :
    let sources := rules (.compile .posix "src/*.rs".toList [])
    let lasting := rules (.compile .windows ['*'] "*.tmp".toList)
    let regrouped := both lasting (both everything (both sources lasting))
    (∀ own, own ∈ regrouped.members ↔ own ∈ (both sources lasting).members) ∧
      (both sources lasting).verdict "src".toList = .descend ∧
      regrouped.verdict "src".toList = .descend := by
  intro sources lasting regrouped
  have same (own : Rules) :
      own ∈ regrouped.members ↔ own ∈ (both sources lasting).members := by
    simp only [regrouped, sources, lasting, members, List.mem_append, List.not_mem_nil]
    grind
  have direct : (both sources lasting).verdict "src".toList = .descend := by decide +kernel
  obtain ⟨_, _, equal⟩ :=
    (answers_eq_meet_of_members (both sources lasting)).2.2.2 regrouped same "src".toList
  exact ⟨same, direct, equal.trans direct⟩

end Sieve

end PathSieve
