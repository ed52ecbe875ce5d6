import PathSieve.Proofs.Compilation
import PathSieve.Proofs.Splitting
import PathSieve.Proofs.Union

/-!
# How rules came about

Rules are made of two lists of phrases, and further lists may be added to what they hold back,
one after the other. This module says that nothing of such a history is left in the rules but
which phrases were given on either side: `rules_depend_on_phrases_alone`. The order of the
phrases, their repetition and their distribution over lists and additions do not matter, and
neither does the delimiter with which lists are joined.

One addition leaves what is let through as it is and adds the masks of its phrases to what is
held back, so a run of additions adds the masks of all their phrases. A set of masks is
determined by its members.
-/

namespace PathSieve

/-- A selection is determined by the masks in its two parts. -/
theorem Selection.eq_of_parts {first second : Selection}
    (same : ∀ scope mask, mask ∈ first.part scope ↔ mask ∈ second.part scope) :
    first = second := by
  cases first
  cases second
  congr 1
  · exact OrderedSet.ext (same .entry)
  · exact OrderedSet.ext (same .folder)

namespace Rules

/-- Rules are determined by their two selections and their platform. -/
theorem eq_of_parts {first second : Rules} (included : first.included = second.included)
    (excluded : first.excluded = second.excluded) (platform : first.platform = second.platform) :
    first = second := by
  cases first
  cases second
  obtain rfl := included
  obtain rfl := excluded
  obtain rfl := platform
  rfl

/-- An addition holds back the masks of its phrases beside those held back before. -/
theorem mem_part_excluded_exclude {rules : Rules} {text : Text} {scope : Scope} {mask : Mask} :
    mask ∈ (rules.exclude text).excluded.part scope ↔
      mask ∈ rules.excluded.part scope ∨
        ∃ phrase ∈ Phrase.split text, mask ∈ (Phrase.compile rules.platform phrase).part scope := by
  rw [← Selection.mem_part_ofText]
  exact Selection.isUnion_insertText rules.excluded rules.platform text scope mask

/-- Additions leave what is let through and the platform as they are. -/
theorem foldl_exclude_keeps (additions : List Text) (rules : Rules) :
    (additions.foldl exclude rules).included = rules.included ∧
      (additions.foldl exclude rules).platform = rules.platform := by
  induction additions generalizing rules with
  | nil => exact ⟨rfl, rfl⟩
  | cons text additions inductionHypothesis => exact inductionHypothesis (rules.exclude text)

/-- A run of additions holds back the masks of all their phrases beside those held back
    before. -/
theorem mem_part_excluded_foldl_exclude {additions : List Text} {rules : Rules} {scope : Scope}
    {mask : Mask} :
    mask ∈ (additions.foldl exclude rules).excluded.part scope ↔
      mask ∈ rules.excluded.part scope ∨
        ∃ phrase ∈ additions.flatMap Phrase.split,
          mask ∈ (Phrase.compile rules.platform phrase).part scope := by
  induction additions generalizing rules with
  | nil => simp
  | cons text additions inductionHypothesis =>
    rw [List.foldl_cons, inductionHypothesis, mem_part_excluded_exclude, or_assoc,
      List.flatMap_cons]
    simp only [List.mem_append, or_and_right, exists_or]
    rfl

end Rules

/-- The lists that rules were made of and the lists that were added, in order, to what they hold
    back. -/
structure History where
  included : Text
  excluded : Text
  additions : List Text

namespace History

/-- The rules that came about on a platform. -/
def rules (history : History) (platform : Platform) : Rules :=
  history.additions.foldl Rules.exclude
    (.compile platform history.included history.excluded)

/-- The phrases of what is let through. -/
def includedPhrases (history : History) : List Text :=
  Phrase.split history.included

/-- The phrases of what is held back, from the first list and from all additions. -/
def excludedPhrases (history : History) : List Text :=
  Phrase.split history.excluded ++ history.additions.flatMap Phrase.split

variable {history first second : History} {platform : Platform} {scope : Scope} {mask : Mask}

/-- The platform is the one that the rules were made for. -/
@[simp] theorem platform_rules : (history.rules platform).platform = platform :=
  (Rules.foldl_exclude_keeps history.additions _).2

/-- What is let through is the selection of the first list. -/
theorem included_rules :
    (history.rules platform).included = .ofText platform history.included :=
  (Rules.foldl_exclude_keeps history.additions _).1

/-- What is let through has the masks of its phrases. -/
theorem mem_part_included_rules : mask ∈ (history.rules platform).included.part scope ↔
    ∃ phrase ∈ history.includedPhrases, mask ∈ (Phrase.compile platform phrase).part scope := by
  rw [included_rules]
  exact Selection.mem_part_ofText

/-- What is held back has the masks of its phrases, wherever these were given. -/
theorem mem_part_excluded_rules : mask ∈ (history.rules platform).excluded.part scope ↔
    ∃ phrase ∈ history.excludedPhrases, mask ∈ (Phrase.compile platform phrase).part scope := by
  rw [rules, Rules.mem_part_excluded_foldl_exclude]
  simp only [Rules.compile, Selection.mem_part_ofText, excludedPhrases, List.mem_append,
    or_and_right, exists_or]

/-- Histories with the same phrases on either side come to the same rules. -/
theorem rules_eq_of_same_phrases
    (included : ∀ phrase, phrase ∈ first.includedPhrases ↔ phrase ∈ second.includedPhrases)
    (excluded : ∀ phrase, phrase ∈ first.excludedPhrases ↔ phrase ∈ second.excludedPhrases) :
    first.rules platform = second.rules platform := by
  apply Rules.eq_of_parts
  · apply Selection.eq_of_parts
    intro scope mask
    simp only [mem_part_included_rules, included]
  · apply Selection.eq_of_parts
    intro scope mask
    simp only [mem_part_excluded_rules, excluded]
  · rw [platform_rules, platform_rules]

/-- Additions come to the same as joining their lists to the first one with delimiters. -/
theorem rules_eq_compile_joined (included excluded : Text) {additions : List (Char × Text)}
    (parts : ∀ addition ∈ additions, Phrase.isDelimiter addition.1) :
    rules ⟨included, excluded, additions.map Prod.snd⟩ platform =
      .compile platform included
        (excluded ++ additions.flatMap fun addition => addition.1 :: addition.2) := by
  have joined : rules ⟨included, excluded, additions.map Prod.snd⟩ platform =
      rules ⟨included, excluded ++ additions.flatMap fun addition => addition.1 :: addition.2, []⟩
        platform := by
    apply rules_eq_of_same_phrases
    · exact fun _ => Iff.rfl
    · intro phrase
      simp only [excludedPhrases, Phrase.split_append_joined excluded parts, List.flatMap_map,
        List.flatMap_nil, List.append_nil]
  exact joined

/-- Rules depend on the phrases that were given and on nothing else in their history. To add
    lists one after the other is to join them, with semicolons or line breaks, to the list that
    the rules were made of; and histories that gave the same phrases to be let through and the
    same phrases to be held back, in whatever order, grouping and number, come to equal rules. -/
theorem rules_depend_on_phrases_alone (platform : Platform) :
    (∀ (included excluded : Text) (additions : List (Char × Text)),
      (∀ addition ∈ additions, addition.1 = ';' ∨ addition.1 = '\n') →
        rules ⟨included, excluded, additions.map Prod.snd⟩ platform =
          .compile platform included
            (excluded ++ additions.flatMap fun addition => addition.1 :: addition.2)) ∧
    ∀ first second : History,
      (∀ phrase, phrase ∈ first.includedPhrases ↔ phrase ∈ second.includedPhrases) →
      (∀ phrase, phrase ∈ first.excludedPhrases ↔ phrase ∈ second.excludedPhrases) →
        first.rules platform = second.rules platform := by
  constructor
  · intro included excluded additions joiners
    apply rules_eq_compile_joined
    intro addition member
    rcases joiners addition member with same | same <;> rw [same] <;> decide
  · intro first second
    exact rules_eq_of_same_phrases

/-- What is added in two steps, with a repetition, may as well be joined or be given at once in
    another order and with other blanks between. -/
theorem rules_of_rearranged_phrases :
    let additions := [(';', "gen/\nold".toList), ('\n', "*.tmp".toList)]
    let grown := History.mk "*.rs;src/".toList "*.tmp".toList (additions.map Prod.snd)
    let given := History.mk "src/\n *.rs ;*.rs".toList " old ; gen/;;*.tmp".toList []
    (∀ phrase, phrase ∈ grown.includedPhrases ↔ phrase ∈ given.includedPhrases) ∧
      (∀ phrase, phrase ∈ grown.excludedPhrases ↔ phrase ∈ given.excludedPhrases) ∧
      grown.rules .macos = given.rules .macos ∧
      grown.rules .macos =
        .compile .macos "*.rs;src/".toList "*.tmp;gen/\nold\n*.tmp".toList := by
  intro additions grown given
  have included (phrase : Text) :
      phrase ∈ grown.includedPhrases ↔ phrase ∈ given.includedPhrases := by
    have before : grown.includedPhrases = ["*.rs".toList, "src/".toList] := by decide +kernel
    have after : given.includedPhrases = ["src/".toList, "*.rs".toList, "*.rs".toList] := by
      decide +kernel
    rw [before, after]
    grind
  have excluded (phrase : Text) :
      phrase ∈ grown.excludedPhrases ↔ phrase ∈ given.excludedPhrases := by
    have before : grown.excludedPhrases =
        ["*.tmp".toList, "gen/".toList, "old".toList, "*.tmp".toList] := by decide +kernel
    have after : given.excludedPhrases = ["old".toList, "gen/".toList, "*.tmp".toList] := by
      decide +kernel
    rw [before, after]
    grind
  obtain ⟨joined, rearranged⟩ := rules_depend_on_phrases_alone .macos
  exact ⟨included, excluded, rearranged grown given included excluded,
    joined "*.rs;src/".toList "*.tmp".toList additions (by decide)⟩

end History

end PathSieve
