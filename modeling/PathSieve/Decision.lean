import PathSieve.Text.Basic

/-!
# Decisions

A traversal that arrives at a folder is told two things: whether the folder goes through, and
what to expect of the entries below it. A `Decision` keeps the two side by side. It is
made in one of three ways: the folder goes through, it is pruned with everything below
it, or it is rejected by itself, with or without a prospect of what is below.

Side by side the two could contradict each other. A decision is coherent where they do not,
and all that is made in one of the three ways is coherent.
-/

namespace PathSieve

/-- What is said about the entries below a folder. -/
inductive Hint where
  /-- No entry below can go through. -/
  | noDescendantMatch
  /-- Some entry below may go through. -/
  | descendantMayMatch
  /-- The folder goes through, so nothing is said about what is below. -/
  | notApplicable
deriving DecidableEq, Repr

/-- The word for a hint. -/
def Hint.label : Hint → Text
  | noDescendantMatch => "no-descendant-match".toList
  | descendantMayMatch => "descendant-may-match".toList
  | notApplicable => "not-applicable".toList

/-- What a traversal is told about a folder: whether it goes through and what to expect
    below it. -/
structure Decision where
  passed : Bool
  hint : Hint
deriving DecidableEq, Repr

namespace Decision

/-- The folder goes through. -/
def pass : Decision := ⟨true, .notApplicable⟩

/-- Neither the folder nor anything below it goes through. -/
def prune : Decision := ⟨false, .noDescendantMatch⟩

/-- The folder does not go through. Something below it may or may not. -/
def reject (mayMatchBelow : Bool) : Decision :=
  ⟨false, if mayMatchBelow then .descendantMayMatch else .noDescendantMatch⟩

/-- Whether a traversal has to enter the folder: for its own sake or for what may be below. -/
def shouldDescend (decision : Decision) : Bool :=
  decision.passed || decision.hint == .descendantMayMatch

/-- Answer and hint fit together: nothing is said about what is below a folder exactly where
    the folder goes through. -/
def IsCoherent (decision : Decision) : Prop :=
  decision.passed = true ↔ decision.hint = .notApplicable

/-- To let a folder through is coherent. -/
theorem isCoherent_pass : pass.IsCoherent :=
  iff_of_true rfl rfl

/-- To prune a folder is coherent. -/
theorem isCoherent_prune : prune.IsCoherent :=
  iff_of_false Bool.false_ne_true Hint.noConfusion

/-- To reject a folder is coherent, with or without a prospect of what is below. -/
theorem isCoherent_reject (mayMatchBelow : Bool) : (reject mayMatchBelow).IsCoherent := by
  cases mayMatchBelow with
  | false => exact isCoherent_prune
  | true => exact iff_of_false Bool.false_ne_true Hint.noConfusion

/-- A rejected folder is entered for what may match below it and for nothing else. -/
@[simp] theorem shouldDescend_reject (mayMatchBelow : Bool) :
    (reject mayMatchBelow).shouldDescend = mayMatchBelow := by
  cases mayMatchBelow <;> rfl

end Decision

end PathSieve
