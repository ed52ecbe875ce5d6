import PathSieve.Selection
import PathSieve.Verdict

/-!
# Rules

Rules are made of two selections, what to let through and what to hold back, and
the platform in whose spelling both are kept. Holding back always wins. Paths are
brought into the platform's spelling before they are judged.

Rules are equal exactly when their four mask sets and their platforms are, and
they are ordered by these five parts in turn. `isUnrestricted_iff_eq` says which
rules are known to let everything through from their mask sets alone.
-/

namespace PathSieve

/-- Compiled rules for letting paths through. -/
structure Rules where
  included : Selection
  excluded : Selection
  platform : Platform
deriving DecidableEq

namespace Rules

/-- The rules of two phrase lists: what to let through and what to hold back. -/
def compile (platform : Platform) (included excluded : Text) : Rules :=
  ⟨.ofText platform included, .ofText platform excluded, platform⟩

/-- The rules that let everything through. -/
def unrestricted (platform : Platform) : Rules :=
  ⟨.everything, .nothing, platform⟩

/-- Whether rules are known to let everything through: nothing is held back, no mask is for
    folders only, and a lone `*` is the one mask for entries of any kind. -/
def isUnrestricted (rules : Rules) : Bool :=
  rules.included.folder.isEmpty && rules.excluded.entry.isEmpty &&
    rules.excluded.folder.isEmpty && rules.included.entry.size == 1 &&
    rules.included.entry.contains ['*']

/-- The rules known to let everything through are those that are made to do so. -/
theorem isUnrestricted_iff_eq {rules : Rules} :
    rules.isUnrestricted ↔ rules = unrestricted rules.platform := by
  obtain ⟨⟨entry, folder⟩, ⟨heldEntry, heldFolder⟩, platform⟩ := rules
  simp only [isUnrestricted, unrestricted, Selection.everything, Selection.nothing,
    Bool.and_eq_true, OrderedSet.isEmpty_iff, OrderedSet.contains_iff, beq_iff_eq]
  constructor
  · rintro ⟨⟨⟨⟨rfl, rfl⟩, rfl⟩, single⟩, run⟩
    rw [OrderedSet.eq_ofList_singleton single run]
  · intro same
    injection same with included excluded
    injection included with entries folders
    injection excluded with heldEntries heldFolders
    subst entries folders heldEntries heldFolders
    exact ⟨⟨⟨⟨rfl, rfl⟩, rfl⟩, rfl⟩, OrderedSet.mem_ofList.mpr List.mem_cons_self⟩

/-- Whether two phrase lists are the plainest way to write rules that let everything
    through: a lone `*` to let through and nothing to hold back. -/
def isUnrestrictedText (included excluded : Text) : Bool :=
  Text.trim included == ['*'] && (Text.trim excluded).isEmpty

/-- Hold back also what a list of phrases picks. -/
def exclude (rules : Rules) (text : Text) : Rules :=
  { rules with excluded := rules.excluded.insertText rules.platform text }

/-- Whether a file goes through. -/
def passesFile (rules : Rules) (path : Text) : Bool :=
  let spelled := rules.platform.normalize path
  !rules.excluded.coversFile rules.platform.separator spelled &&
    rules.included.coversFile rules.platform.separator spelled

/-- Judge a folder. A folder that is held back takes everything below it along; one that is
    merely not let through is worth entering as long as something below might be let
    through, which is looked into only where a hint is wanted. -/
def judgeFolder (rules : Rules) (path : Text) (wantsHint : Bool) : Decision :=
  let spelled := rules.platform.normalize path
  if rules.excluded.coversFolder rules.platform.separator spelled then .prune
  else if rules.included.coversFolder rules.platform.separator spelled then .pass
  else if wantsHint then .reject (rules.included.mayCoverBelow rules.platform.separator spelled)
  else .reject false

/-- Whether a folder goes through. -/
def passesFolder (rules : Rules) (path : Text) : Bool :=
  (rules.judgeFolder path false).passed

/-- What a traversal is told about a folder. -/
def decision (rules : Rules) (path : Text) : Decision :=
  rules.judgeFolder path true

/-- The verdict on a folder that a traversal is told. -/
def verdict (rules : Rules) (path : Text) : Verdict :=
  (rules.decision path).verdict

/-- Rules never contradict themselves about a folder. -/
theorem isCoherent_judgeFolder (rules : Rules) (path : Text) (wantsHint : Bool) :
    (rules.judgeFolder path wantsHint).IsCoherent := by
  by_cases held : rules.excluded.coversFolder rules.platform.separator
      (rules.platform.normalize path)
  · rw [judgeFolder, if_pos held]
    exact Decision.isCoherent_prune
  rw [judgeFolder, if_neg held]
  by_cases picked : rules.included.coversFolder rules.platform.separator
      (rules.platform.normalize path)
  · rw [if_pos picked]
    exact Decision.isCoherent_pass
  rw [if_neg picked]
  cases wantsHint <;> exact Decision.isCoherent_reject _

/-- The verdict of rules stands for what a traversal is told. -/
@[simp] theorem decision_verdict (rules : Rules) (path : Text) :
    (rules.verdict path).decision = rules.decision path :=
  Decision.decision_verdict (rules.isCoherent_judgeFolder path true)

/-- Whether a folder goes through does not depend on a hint being wanted: it does when it is
    picked to be let through and not picked to be held back. -/
@[simp] theorem passed_judgeFolder (rules : Rules) (path : Text) (wantsHint : Bool) :
    (rules.judgeFolder path wantsHint).passed =
      (!rules.excluded.coversFolder rules.platform.separator (rules.platform.normalize path) &&
        rules.included.coversFolder rules.platform.separator (rules.platform.normalize path)) := by
  cases held : rules.excluded.coversFolder rules.platform.separator
      (rules.platform.normalize path) with
  | true => simp [judgeFolder, held, Decision.prune]
  | false =>
    cases picked : rules.included.coversFolder rules.platform.separator
        (rules.platform.normalize path) with
    | true => simp [judgeFolder, held, picked, Decision.pass]
    | false => cases wantsHint <;> simp [judgeFolder, held, picked, Decision.reject]

/-- A folder is entered when nothing holds it back and it is let through itself or something
    below it might be. -/
theorem shouldDescend_verdict (rules : Rules) (path : Text) :
    (rules.verdict path).shouldDescend =
      (!rules.excluded.coversFolder rules.platform.separator (rules.platform.normalize path) &&
        (rules.included.coversFolder rules.platform.separator (rules.platform.normalize path) ||
          rules.included.mayCoverBelow rules.platform.separator
            (rules.platform.normalize path))) := by
  rw [verdict, Decision.shouldDescend_verdict, decision]
  cases held : rules.excluded.coversFolder rules.platform.separator
      (rules.platform.normalize path) with
  | true => simp [judgeFolder, held, Decision.prune, Decision.shouldDescend]
  | false =>
    cases picked : rules.included.coversFolder rules.platform.separator
        (rules.platform.normalize path) with
    | true => simp [judgeFolder, held, picked, Decision.pass, Decision.shouldDescend]
    | false => simp [judgeFolder, held, picked]

/-- Rules are ordered by what they let through, then by what they hold back, then by
    platform. -/
instance : Ord Rules where
  compare := compareLex (compareOn included)
    (compareLex (compareOn excluded) (compareOn platform))

instance : Std.TransOrd Rules :=
  inferInstanceAs (Std.TransCmp (compareLex (compareOn included)
    (compareLex (compareOn excluded) (compareOn platform))))

/-- Only equal rules tie. -/
instance : Std.LawfulEqOrd Rules where
  compare_self := by
    intro rules
    change (compare rules.included rules.included).then
      ((compare rules.excluded rules.excluded).then
        (compare rules.platform rules.platform)) = .eq
    simp
  eq_of_compare := by
    intro first second tie
    obtain ⟨included, others⟩ := Ordering.then_eq_eq.mp
      (show (compare first.included second.included).then
        ((compare first.excluded second.excluded).then
          (compare first.platform second.platform)) = .eq from tie)
    obtain ⟨excluded, platform⟩ := Ordering.then_eq_eq.mp others
    cases first
    cases second
    obtain rfl := Std.LawfulEqCmp.eq_of_compare included
    obtain rfl := Std.LawfulEqCmp.eq_of_compare excluded
    obtain rfl := Std.LawfulEqCmp.eq_of_compare platform
    rfl

end Rules

end PathSieve
