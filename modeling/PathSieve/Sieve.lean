import PathSieve.Rules

/-!
# Sieves

A sieve lets everything through, applies rules, or asks two sieves in turn, both
of which have to let a path through. It answers whether a file goes through,
whether a folder does, and what a traversal is to do with a folder.

Sieves are ordered by kind and then part by part, and two sieves count as equal when they
tie. `Sieve.combine` joins two sieves and leaves out what adds nothing: a member that
lets everything through, or one that is equal to the first. `Sieve.excluding` adds
exclusions to a sieve: to its first rules, since both members of a pair have to
agree anyway.
-/

namespace PathSieve

/-- A decision procedure for paths. -/
inductive Sieve where
  /-- Let everything through. -/
  | everything
  /-- Apply rules. -/
  | rules (rules : Rules)
  /-- Let through what two sieves let through. -/
  | both (first second : Sieve)
deriving DecidableEq

namespace Sieve

instance : Inhabited Sieve := ⟨everything⟩

/-- Whether a sieve is known to let everything through. A pair never counts as such. -/
def isUnrestricted : Sieve → Bool
  | everything => true
  | rules own => own.isUnrestricted
  | both _ _ => false

/-- Whether a file goes through. -/
def passesFile : Sieve → (path : Text) → Bool
  | everything, _ => true
  | rules own, path => own.passesFile path
  | both first second, path => first.passesFile path && second.passesFile path

/-- Whether a folder goes through. -/
def passesFolder : Sieve → (path : Text) → Bool
  | everything, _ => true
  | rules own, path => own.passesFolder path
  | both first second, path => first.passesFolder path && second.passesFolder path

/-- What a traversal is told about a folder. The second of two sieves decides where the first
    lets the folder through, and is not asked where the first sees nothing below. Where the
    first does see something below, the folder does not go through, and the second says
    whether it is still worth entering. -/
def decision : Sieve → (path : Text) → Decision
  | everything, _ => .pass
  | rules own, path => own.decision path
  | both first second, path =>
    let decision := first.decision path
    if decision.passed then second.decision path
    else if decision.hint != .descendantMayMatch then decision
    else .reject (second.decision path).shouldDescend

/-- The verdict on a folder that a traversal is told. -/
def verdict (sieve : Sieve) (path : Text) : Verdict :=
  (sieve.decision path).verdict

/-- The sieve without rules lets every folder through. -/
@[simp] theorem verdict_everything (path : Text) : everything.verdict path = .pass := rfl

/-- A sieve never contradicts itself about a folder, however it is nested. -/
theorem isCoherent_decision (sieve : Sieve) (path : Text) : (sieve.decision path).IsCoherent := by
  induction sieve with
  | everything => exact Decision.isCoherent_pass
  | rules own => exact own.isCoherent_judgeFolder path true
  | both first second firstHypothesis secondHypothesis =>
    rw [decision]
    split
    · exact secondHypothesis
    split
    · exact firstHypothesis
    · exact Decision.isCoherent_reject _

/-- The verdict of a sieve stands for what a traversal is told. -/
@[simp] theorem decision_verdict (sieve : Sieve) (path : Text) :
    (sieve.verdict path).decision = sieve.decision path :=
  Decision.decision_verdict (sieve.isCoherent_decision path)

/-- The place of a sieve's kind in the order of kinds. -/
def rank : Sieve → Nat
  | everything => 0
  | rules _ => 1
  | both _ _ => 2

/-- Compare two sieves, by kind where the kinds differ and part by part where not. -/
def order : Sieve → Sieve → Ordering
  | rules first, rules second => compare first second
  | both first second, both otherFirst otherSecond =>
    (first.order otherFirst).then (second.order otherSecond)
  | first, second => compare first.rank second.rank

instance : Ord Sieve := ⟨order⟩

/-- Two sieves count as equal when they tie. -/
instance : BEq Sieve := ⟨fun first second => compare first second == .eq⟩

/-- Let through what two sieves let through, without a member that adds nothing. -/
def combine (first second : Sieve) : Sieve :=
  if first.isUnrestricted then
    if second.isUnrestricted then everything else second
  else if second.isUnrestricted || first == second then first
  else both first second

/-- Hold back also what a list of phrases picks. The phrases are read in the spelling of
    the rules they join; the platform is that of the rules made where there are none. -/
def excluding (platform : Platform) (text : Text) : Sieve → Sieve
  | everything => rules (.compile platform ['*'] text)
  | rules own => rules (own.exclude text)
  | both first second => both (first.excluding platform text) second

/-- The rules that a sieve asks, from left to right. -/
def members : Sieve → List Rules
  | everything => []
  | rules own => [own]
  | both first second => first.members ++ second.members

end Sieve

end PathSieve
