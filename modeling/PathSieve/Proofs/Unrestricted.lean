import PathSieve.Proofs.Exclusion
import PathSieve.Proofs.Splitting
import PathSieve.Settings

/-!
# Settings that let everything through

Settings are seen to let everything through without being compiled: what to let through is a
lone `*` and what to hold back is blank, once both are trimmed. This module says that the short
way comes to the same as the long one, on which the lists are split at their delimiters, the
phrases trimmed one by one and the masks collected: `toSieve_answers_as_compiled`.

A list may be trimmed as a whole before it is split, so that its masks are those of the trimmed
list. What the short way recognizes therefore has the masks of a lone `*` and no others, and
rules with these masks let everything through, as any sieve does that is known to.
-/

namespace PathSieve

/-- A list selects the same when it is trimmed as a whole. -/
theorem Selection.ofText_trim (platform : Platform) (text : Text) :
    ofText platform (Text.trim text) = ofText platform text := by
  rw [ofText, ofText, Phrase.compileAll, Phrase.compileAll, Phrase.split_trim]

namespace Rules

/-- Two lists make the same rules when each is trimmed as a whole. -/
theorem compile_trim (platform : Platform) (included excluded : Text) :
    compile platform (Text.trim included) (Text.trim excluded) =
      compile platform included excluded := by
  rw [compile, compile, Selection.ofText_trim, Selection.ofText_trim]

/-- The rules that let everything through are known as such. -/
@[simp] theorem isUnrestricted_unrestricted (platform : Platform) :
    (unrestricted platform).isUnrestricted :=
  isUnrestricted_iff_eq.mpr rfl

/-- The plainest way to write rules that let everything through gives these rules, whatever
    blanks and line breaks it is written with. -/
theorem compile_of_isUnrestrictedText {included excluded : Text} (platform : Platform)
    (plain : isUnrestrictedText included excluded) :
    compile platform included excluded = unrestricted platform := by
  obtain ⟨loneRun, blank⟩ : Text.trim included = ['*'] ∧ Text.trim excluded = [] := by
    simpa [isUnrestrictedText] using plain
  rw [← compile_trim, loneRun, blank, compile_run_nil]

end Rules

namespace Sieve

/-- A sieve known to let everything through lets every file and every folder through, and the
    hint about a folder says nothing about what is below it. -/
theorem passes_all_of_isUnrestricted {sieve : Sieve} (free : sieve.isUnrestricted)
    (path : Text) :
    sieve.passesFile path = true ∧ sieve.passesFolder path = true ∧
      (sieve.verdict path).passed = true ∧ (sieve.verdict path).hint = .notApplicable := by
  have agrees : sieve.Agrees everything := agrees_with_everything free
  rw [agrees.file, agrees.folder, agrees.verdict]
  exact ⟨rfl, rfl, rfl, rfl⟩

end Sieve

namespace Settings

/-- Settings give the sieve of their compiled rules, or they are written in the plainest way and
    their rules are those that let everything through. -/
theorem toSieve_cases (settings : Settings) (platform : Platform) :
    (settings.toSieve platform = .everything ∧
      Rules.compile platform settings.included settings.excluded = .unrestricted platform) ∨
    settings.toSieve platform =
      .rules (.compile platform settings.included settings.excluded) := by
  by_cases plain : settings.isUnrestricted
  · exact .inl ⟨if_pos plain, Rules.compile_of_isUnrestrictedText platform plain⟩
  · exact .inr (if_neg plain)

/-- To recognize settings that let everything through before they are compiled changes nothing.
    What is recognized compiles to the rules that let everything through; the sieve of any
    settings answers as their compiled rules do and is known to let everything through when
    these are; and a sieve known to let everything through does so for every path. -/
theorem toSieve_answers_as_compiled (included excluded : Text) (platform : Platform) :
    (Rules.isUnrestrictedText included excluded →
      Rules.compile platform included excluded = .unrestricted platform) ∧
    ((toSieve ⟨included, excluded⟩ platform).Agrees
        (.rules (.compile platform included excluded)) ∧
      (toSieve ⟨included, excluded⟩ platform).isUnrestricted =
        (Sieve.rules (.compile platform included excluded)).isUnrestricted) ∧
    ∀ sieve : Sieve, sieve.isUnrestricted → ∀ path,
      sieve.passesFile path = true ∧ sieve.passesFolder path = true ∧
        (sieve.verdict path).passed = true ∧ (sieve.verdict path).hint = .notApplicable := by
  refine ⟨Rules.compile_of_isUnrestrictedText platform, ?_,
    fun _ free => Sieve.passes_all_of_isUnrestricted free⟩
  rcases toSieve_cases ⟨included, excluded⟩ platform with ⟨short, plain⟩ | compiled
  · have free : (Sieve.rules (.compile platform included excluded)).isUnrestricted := by
      rw [plain]
      exact Rules.isUnrestricted_unrestricted platform
    rw [short, free]
    exact ⟨(Sieve.agrees_with_everything free).symm, rfl⟩
  · rw [compiled]
    exact ⟨.refl _, rfl⟩

/-- A `*` between wide spaces and line breaks, with nothing but blanks to hold back. -/
theorem compile_of_blanks_around_run :
    let included := "\u3000\n *\u2028\t\n".toList
    let excluded := " \n\u00a0\n".toList
    Rules.isUnrestrictedText included excluded ∧
      Rules.compile .windows included excluded = .unrestricted .windows ∧
      (toSieve ⟨included, excluded⟩ .windows).passesFile [] = true := by
  intro included excluded
  have plain : Rules.isUnrestrictedText included excluded := by decide +kernel
  have short : toSieve ⟨included, excluded⟩ .windows = .everything := if_pos plain
  obtain ⟨compiles, _, passes⟩ := toSieve_answers_as_compiled included excluded .windows
  have free : (toSieve ⟨included, excluded⟩ .windows).isUnrestricted := by rw [short]; rfl
  exact ⟨plain, compiles plain, (passes _ free []).1⟩

end Settings

end PathSieve
