import PathSieve.Sieve
import PathSieve.Trace

/-!
# Sieves at work

The operations of rules and sieves together with the events they cause. Only rules
cause events. A pair asks its second member only if the first leaves the answer
open: a file or folder that the first holds back needs no second opinion, nor does
a folder that the first prunes.

The main statements say that the trace is an addition and nothing more: the result
of every traced operation is that of the plain one.
-/

namespace PathSieve

namespace Rules

/-- The events of compiling a list of phrases, mask by mask in the order of the phrases. -/
def compileEvents (platform : Platform) (text : Text) (included : Bool) : List Event :=
  (Phrase.split text).flatMap fun phrase =>
    (Phrase.compile platform phrase).labelled.map fun (scope, mask) =>
      .maskCompiled phrase mask scope included

/-- Compile rules. -/
def compileTraced (platform : Platform) (included excluded : Text) : Traced Rules :=
  ⟨compile platform included excluded,
    compileEvents platform included true ++ compileEvents platform excluded false⟩

/-- Add exclusions to rules. The counts are taken when all of them are in place. -/
def excludeTraced (rules : Rules) (text : Text) : Traced Rules :=
  let extended := rules.exclude text
  ⟨extended, compileEvents rules.platform text false ++
    [.exclusionAdded text extended.excluded.entry.size extended.excluded.folder.size]⟩

/-- Judge a file. -/
def passesFileTraced (rules : Rules) (path : Text) : Traced Bool :=
  let passed := rules.passesFile path
  ⟨passed, [.fileJudged path passed]⟩

/-- Judge a folder without a hint. -/
def passesFolderTraced (rules : Rules) (path : Text) : Traced Bool :=
  let passed := rules.passesFolder path
  ⟨passed, [.folderJudged path passed none]⟩

/-- Judge a folder with a hint. -/
def decisionTraced (rules : Rules) (path : Text) : Traced Decision :=
  let decision := rules.decision path
  ⟨decision, [.folderJudged path decision.passed (some decision.hint)]⟩

end Rules

namespace Sieve

/-- Judge a file, stopping at the first rules that hold it back. -/
def passesFileTraced : Sieve → (path : Text) → Traced Bool
  | everything, _ => pure true
  | rules own, path => own.passesFileTraced path
  | both first second, path => do
    if ← first.passesFileTraced path then second.passesFileTraced path else pure false

/-- Judge a folder without a hint, stopping at the first rules that hold it back. -/
def passesFolderTraced : Sieve → (path : Text) → Traced Bool
  | everything, _ => pure true
  | rules own, path => own.passesFolderTraced path
  | both first second, path => do
    if ← first.passesFolderTraced path then second.passesFolderTraced path else pure false

/-- Judge a folder with a hint, stopping at the first rules that prune it. -/
def decisionTraced : Sieve → (path : Text) → Traced Decision
  | everything, _ => pure .pass
  | rules own, path => own.decisionTraced path
  | both first second, path => do
    let decision ← first.decisionTraced path
    if decision.passed then second.decisionTraced path
    else if decision.hint != .descendantMayMatch then pure decision
    else (Decision.reject ·.shouldDescend) <$> second.decisionTraced path

/-- Add exclusions to a sieve. -/
def excludingTraced (platform : Platform) (text : Text) : Sieve → Traced Sieve
  | everything => rules <$> Rules.compileTraced platform ['*'] text
  | rules own => rules <$> own.excludeTraced text
  | both first second => (both · second) <$> first.excludingTraced platform text

/-- The traced answer for a file is the plain one. -/
@[simp] theorem value_passesFileTraced (sieve : Sieve) (path : Text) :
    (sieve.passesFileTraced path).value = sieve.passesFile path := by
  induction sieve with
  | everything => rfl
  | rules own => rfl
  | both first second firstHypothesis secondHypothesis =>
    rw [passesFileTraced, passesFile, Traced.value_bind, firstHypothesis]
    cases first.passesFile path <;> simp [secondHypothesis]

/-- The traced answer for a folder is the plain one. -/
@[simp] theorem value_passesFolderTraced (sieve : Sieve) (path : Text) :
    (sieve.passesFolderTraced path).value = sieve.passesFolder path := by
  induction sieve with
  | everything => rfl
  | rules own => rfl
  | both first second firstHypothesis secondHypothesis =>
    rw [passesFolderTraced, passesFolder, Traced.value_bind, firstHypothesis]
    cases first.passesFolder path <;> simp [secondHypothesis]

/-- The traced decision is the plain one. -/
@[simp] theorem value_decisionTraced (sieve : Sieve) (path : Text) :
    (sieve.decisionTraced path).value = sieve.decision path := by
  induction sieve with
  | everything => rfl
  | rules own => rfl
  | both first second firstHypothesis secondHypothesis =>
    rw [decisionTraced, decision, Traced.value_bind, firstHypothesis]
    split
    · exact secondHypothesis
    split
    · rfl
    · rw [Traced.value_map, secondHypothesis]

/-- The traced way of adding exclusions gives the plain result. -/
@[simp] theorem value_excludingTraced (platform : Platform) (text : Text) (sieve : Sieve) :
    (sieve.excludingTraced platform text).value = sieve.excluding platform text := by
  induction sieve with
  | everything => rfl
  | rules own => rfl
  | both first second firstHypothesis _ =>
    rw [excludingTraced, excluding, Traced.value_map, firstHypothesis]

end Sieve

end PathSieve
