import PathSieve.Decision

/-!
# Verdicts

A coherent decision on a folder is one of three: leave the folder and everything below
it, look below it although the folder itself does not go through, or let it through.
These are the verdicts. They form a chain in that order, from the strictest to the most
permissive, in which the decisions of several sieves can be compared.

`exists_decision_eq_iff` says that verdicts are the coherent decisions and nothing else.
-/

namespace PathSieve

/-- The answer about a folder. -/
inductive Verdict where
  /-- Neither the folder nor anything below it goes through. -/
  | prune
  /-- The folder does not go through, but something below it may. -/
  | descend
  /-- The folder goes through. -/
  | pass
deriving DecidableEq, Repr

namespace Verdict

/-- The decision that a verdict stands for. -/
def decision : Verdict → Decision
  | prune => .prune
  | descend => .reject true
  | pass => .pass

/-- Whether the folder itself goes through. -/
def passed (verdict : Verdict) : Bool :=
  verdict.decision.passed

/-- What is said about the entries below. -/
def hint (verdict : Verdict) : Hint :=
  verdict.decision.hint

/-- Whether a traversal has to enter the folder. -/
def shouldDescend (verdict : Verdict) : Bool :=
  verdict.decision.shouldDescend

/-- The verdict on a folder that does not go through: whether something below it may. -/
def reject (mayMatchBelow : Bool) : Verdict :=
  if mayMatchBelow then descend else prune

/-- The place of a verdict in the chain from the strictest to the most permissive. -/
def rank : Verdict → Nat
  | prune => 0
  | descend => 1
  | pass => 2

instance : LE Verdict := ⟨fun first second => first.rank ≤ second.rank⟩

instance (first second : Verdict) : Decidable (first ≤ second) :=
  inferInstanceAs (Decidable (first.rank ≤ second.rank))

instance : Min Verdict := minOfLe

instance : Max Verdict := maxOfLe

/-- A rejected folder does not go through, whatever may match below it. -/
@[simp] theorem passed_reject (mayMatchBelow : Bool) : (reject mayMatchBelow).passed = false := by
  cases mayMatchBelow <;> rfl

/-- A rejected folder is entered for what may match below it and for nothing else. -/
@[simp] theorem shouldDescend_reject (mayMatchBelow : Bool) :
    (reject mayMatchBelow).shouldDescend = mayMatchBelow := by
  cases mayMatchBelow <;> rfl

/-- The lesser of two verdicts lets a folder through exactly when both do. -/
@[simp] theorem passed_min (first second : Verdict) :
    (min first second).passed = (first.passed && second.passed) := by
  cases first <;> cases second <;> rfl

/-- The lesser of two verdicts has a traversal descend exactly when both do. -/
@[simp] theorem shouldDescend_min (first second : Verdict) :
    (min first second).shouldDescend = (first.shouldDescend && second.shouldDescend) := by
  cases first <;> cases second <;> rfl

end Verdict

namespace Decision

/-- The verdict of a decision, by the tests that a traversal makes. -/
def verdict (decision : Decision) : Verdict :=
  if decision.passed then .pass
  else if decision.hint = .descendantMayMatch then .descend
  else .prune

variable (decision : Decision)

/-- A decision and its verdict let the same folders through. -/
@[simp] theorem passed_verdict : decision.verdict.passed = decision.passed := by
  obtain ⟨passed, hint⟩ := decision
  cases passed <;> cases hint <;> rfl

/-- A decision and its verdict have a traversal enter the same folders. -/
@[simp] theorem shouldDescend_verdict :
    decision.verdict.shouldDescend = decision.shouldDescend := by
  obtain ⟨passed, hint⟩ := decision
  cases passed <;> cases hint <;> rfl

/-- The verdict of a rejection is that rejection. -/
@[simp] theorem verdict_reject (mayMatchBelow : Bool) :
    (reject mayMatchBelow).verdict = .reject mayMatchBelow := by
  cases mayMatchBelow <;> rfl

variable {decision}

/-- The verdict of a coherent decision stands for that decision. -/
theorem decision_verdict (coherent : decision.IsCoherent) :
    decision.verdict.decision = decision := by
  obtain ⟨passed, hint⟩ := decision
  cases passed with
  | false =>
    cases hint with
    | noDescendantMatch => rfl
    | descendantMayMatch => rfl
    | notApplicable => exact absurd (coherent.mpr rfl) Bool.false_ne_true
  | true =>
    obtain rfl : hint = .notApplicable := coherent.mp rfl
    rfl

/-- Verdicts stand for the coherent decisions and for no others. -/
theorem exists_decision_eq_iff :
    (∃ verdict : Verdict, verdict.decision = decision) ↔ decision.IsCoherent := by
  constructor
  · rintro ⟨verdict, rfl⟩
    cases verdict with
    | prune => exact isCoherent_prune
    | descend => exact isCoherent_reject true
    | pass => exact isCoherent_pass
  · intro coherent
    exact ⟨decision.verdict, decision_verdict coherent⟩

end Decision

end PathSieve
