import PathSieve.Mask

/-!
# The language of a mask

`Mask.Describes` says which texts a mask stands for, by its structure alone: a
`*` stands for any run, a `?` for any character, every other symbol for itself.
This module ties the search in `Mask.remainders` to that language. Its main
statements are `mem_remainders_iff`, that a rest is found exactly when what
precedes it is described, and `covers_iff`, which says the same of covering.
`covers_nil`, `covers_cons_run` and `covers_cons_of_ne` say symbol by symbol what a
mask covers.
-/

namespace PathSieve.Mask

/-- The texts that a mask stands for. -/
inductive Describes : Mask → Text → Prop where
  /-- The empty mask stands for the empty text. -/
  | empty : Describes [] []
  /-- A `*` stands for any run of characters. -/
  | run (run : Text) {mask : Mask} {text : Text} (rest : Describes mask text) :
      Describes ('*' :: mask) (run ++ text)
  /-- A `?` stands for any single character. -/
  | single (character : Char) {mask : Mask} {text : Text} (rest : Describes mask text) :
      Describes ('?' :: mask) (character :: text)
  /-- Every other symbol stands for itself. -/
  | literal (symbol : Char) {mask : Mask} {text : Text} (notRun : symbol ≠ '*')
      (notSingle : symbol ≠ '?') (rest : Describes mask text) :
      Describes (symbol :: mask) (symbol :: text)

/-- Only the empty text is described by the empty mask. -/
@[simp] theorem describes_nil {text : Text} : Describes [] text ↔ text = [] :=
  ⟨fun described => by cases described; rfl, fun equal => equal ▸ .empty⟩

/-- A leading `*` leaves some suffix to the rest of the mask. -/
theorem describes_run {mask : Mask} {text : Text} :
    Describes ('*' :: mask) text ↔ ∃ run rest, text = run ++ rest ∧ Describes mask rest := by
  constructor
  · intro described
    cases described with
    | run run rest => exact ⟨run, _, rfl, rest⟩
    | literal _ notRun => exact absurd rfl notRun
  · rintro ⟨run, rest, rfl, described⟩
    exact .run run described

/-- A leading `?` takes one character. -/
theorem describes_single {mask : Mask} {text : Text} :
    Describes ('?' :: mask) text ↔ ∃ first rest, text = first :: rest ∧ Describes mask rest := by
  constructor
  · intro described
    cases described with
    | single first rest => exact ⟨first, _, rfl, rest⟩
    | literal _ _ notSingle => exact absurd rfl notSingle
  · rintro ⟨first, rest, rfl, described⟩
    exact .single first described

/-- Any other leading symbol takes itself. -/
theorem describes_literal {symbol : Char} {mask : Mask} {text : Text} (notRun : symbol ≠ '*')
    (notSingle : symbol ≠ '?') :
    Describes (symbol :: mask) text ↔ ∃ rest, text = symbol :: rest ∧ Describes mask rest := by
  constructor
  · intro described
    cases described with
    | run => exact absurd rfl notRun
    | single => exact absurd rfl notSingle
    | literal _ _ _ rest => exact ⟨_, rfl, rest⟩
  · rintro ⟨rest, rfl, described⟩
    exact .literal symbol notRun notSingle described

/-- A leading symbol other than a `*` takes one character: any if it is a `?`, and otherwise its
    own. -/
theorem describes_cons_of_ne {symbol : Char} {mask : Mask} {text : Text} (notRun : symbol ≠ '*') :
    Describes (symbol :: mask) text ↔
      ∃ first rest, text = first :: rest ∧ (symbol = '?' ∨ symbol = first) ∧
        Describes mask rest := by
  by_cases isSingle : symbol = '?'
  · subst isSingle
    simp [describes_single]
  · rw [describes_literal notRun isSingle]
    constructor
    · rintro ⟨rest, rfl, language⟩
      exact ⟨symbol, rest, rfl, .inr rfl, language⟩
    · rintro ⟨first, rest, rfl, takes, language⟩
      obtain rfl := takes.resolve_left isSingle
      exact ⟨rest, rfl, language⟩

/-- Rests in which every later one ends every earlier one, as the search keeps them. -/
def Descending (rests : List Text) : Prop :=
  rests.Pairwise fun longer shorter => shorter <:+ longer

/-- The suffixes of a text descend. -/
theorem descending_suffixes (text : Text) : Descending text.suffixes := by
  induction text with
  | nil => simp [Descending, Text.suffixes]
  | cons first rest inductionHypothesis =>
    refine List.Pairwise.cons (fun shorter member => ?_) inductionHypothesis
    exact (Text.mem_suffixes.mp member).trans (List.suffix_cons _ _)

/-- Taking one character off each rest that allows it keeps them descending. -/
theorem descending_filterMap {take : Text → Option Text} {rests : List Text}
    (takesFirst : ∀ {whole rest}, take whole = some rest → ∃ first, whole = first :: rest)
    (descending : Descending rests) : Descending (rests.filterMap take) := by
  refine List.Pairwise.filterMap take ?_ descending
  intro longer shorter ends longerRest longerTaken shorterRest shorterTaken
  obtain ⟨_, rfl⟩ := takesFirst longerTaken
  obtain ⟨_, rfl⟩ := takesFirst shorterTaken
  rcases List.suffix_cons_iff.mp ends with same | shorterEnds
  · exact (List.cons.inj same).2 ▸ List.suffix_rfl
  · exact (List.suffix_cons _ _).trans shorterEnds

/-- Cutting a single character off succeeds on the texts that begin with it. -/
theorem takesFirst_after? {symbol : Char} {whole rest : Text}
    (taken : Text.after? [symbol] whole = some rest) : ∃ first, whole = first :: rest :=
  ⟨symbol, Text.after?_eq_some_iff.mp taken⟩

/-- Dropping the first character succeeds on the texts that have one. -/
theorem takesFirst_tail? {whole rest : Text} (taken : whole.tail? = some rest) :
    ∃ first, whole = first :: rest := by
  cases whole with
  | nil => simp at taken
  | cons first tail => exact ⟨first, by simpa using taken⟩

/-- A symbol other than the wildcards is cut off as itself. -/
theorem advance_literal {symbol : Char} (rests : List Text) (notRun : symbol ≠ '*')
    (notSingle : symbol ≠ '?') :
    advance rests symbol = rests.filterMap (Text.after? [symbol]) := by
  unfold advance
  split <;> first | contradiction | rfl

/-- Each symbol keeps the rests descending. -/
theorem descending_advance {rests : List Text} (symbol : Char)
    (descending : Descending rests) : Descending (advance rests symbol) := by
  by_cases isRun : symbol = '*'
  · subst isRun
    cases rests with
    | nil => exact List.Pairwise.nil
    | cons longest rests => exact descending_suffixes longest
  · by_cases isSingle : symbol = '?'
    · subst isSingle
      exact descending_filterMap takesFirst_tail? descending
    · rw [advance_literal rests isRun isSingle]
      exact descending_filterMap takesFirst_after? descending

/-- After a `*` every suffix of every rest may be left. -/
theorem mem_advance_run {rests : List Text} {rest : Text} (descending : Descending rests) :
    rest ∈ advance rests '*' ↔ ∃ start ∈ rests, rest <:+ start := by
  cases rests with
  | nil => simp [advance]
  | cons longest rests =>
    simp only [advance, List.head?_cons, Option.map_some, Option.getD_some, Text.mem_suffixes]
    constructor
    · exact fun ends => ⟨longest, List.mem_cons_self, ends⟩
    · rintro ⟨start, member, ends⟩
      rcases List.mem_cons.mp member with rfl | member
      · exact ends
      · exact ends.trans (List.rel_of_pairwise_cons descending member)

/-- After any other symbol a rest is left of which a character was taken that the symbol takes. -/
theorem mem_advance_of_ne {symbol : Char} {rests : List Text} {rest : Text}
    (notRun : symbol ≠ '*') :
    rest ∈ advance rests symbol ↔
      ∃ first, first :: rest ∈ rests ∧ (symbol = '?' ∨ symbol = first) := by
  by_cases isSingle : symbol = '?'
  · subst isSingle
    simp only [advance, List.mem_filterMap, true_or, and_true]
    constructor
    · rintro ⟨start, member, taken⟩
      obtain ⟨first, rfl⟩ := takesFirst_tail? taken
      exact ⟨first, member⟩
    · exact fun ⟨first, member⟩ => ⟨first :: rest, member, rfl⟩
  · rw [advance_literal rests notRun isSingle]
    simp [Text.after?_eq_some_iff, isSingle]

/-- The search from any descending rests finds exactly what the language leaves over. -/
theorem mem_foldl_advance {mask : Mask} {rests : List Text} {rest : Text}
    (descending : Descending rests) :
    rest ∈ mask.foldl advance rests ↔
      ∃ start ∈ rests, ∃ described, start = described ++ rest ∧ Describes mask described := by
  induction mask generalizing rests with
  | nil => simp
  | cons symbol mask inductionHypothesis =>
    rw [List.foldl_cons, inductionHypothesis (descending_advance symbol descending)]
    by_cases isRun : symbol = '*'
    · subst isRun
      simp only [mem_advance_run descending, describes_run]
      constructor
      · rintro ⟨_, ⟨start, member, run, split⟩, described, rfl, language⟩
        exact ⟨start, member, run ++ described, by rw [← split, List.append_assoc], run, described,
          rfl, language⟩
      · rintro ⟨_, member, _, rfl, run, described, rfl, language⟩
        exact ⟨described ++ rest, ⟨_, member, run, by rw [List.append_assoc]⟩, described, rfl,
          language⟩
    · simp only [mem_advance_of_ne isRun, describes_cons_of_ne isRun]
      constructor
      · rintro ⟨_, ⟨first, member, takes⟩, described, rfl, language⟩
        exact ⟨_, member, first :: described, rfl, first, described, rfl, takes, language⟩
      · rintro ⟨_, member, _, rfl, first, described, rfl, takes, language⟩
        exact ⟨described ++ rest, ⟨first, member, takes⟩, described, rfl, language⟩

/-- A rest is left of a path exactly when the mask describes what precedes it. -/
theorem mem_remainders_iff {mask : Mask} {path rest : Text} :
    rest ∈ mask.remainders path ↔
      ∃ described, path = described ++ rest ∧ Describes mask described := by
  rw [remainders, mem_foldl_advance (List.pairwise_singleton _ _)]
  constructor
  · rintro ⟨start, member, split⟩
    exact List.mem_singleton.mp member ▸ split
  · exact fun split => ⟨path, List.mem_singleton_self path, split⟩

/-- A mask covers a path exactly when it describes a beginning of the path after which the
    extent lets it stop. -/
theorem covers_iff {mask : Mask} {extent : Extent} {separator : Char} {path : Text} :
    mask.covers extent separator path ↔
      ∃ described rest, path = described ++ rest ∧ Describes mask described ∧
        extent.accepts separator rest := by
  simp only [covers, List.any_eq_true, mem_remainders_iff]
  constructor
  · rintro ⟨rest, ⟨described, split, language⟩, accepted⟩
    exact ⟨described, rest, split, language, accepted⟩
  · rintro ⟨described, rest, split, language, accepted⟩
    exact ⟨rest, ⟨described, split, language⟩, accepted⟩

section Symbols

variable {symbol : Char} {mask : Mask} {extent : Extent} {separator : Char} {path : Text}

/-- The empty mask covers a path where it may stop at once. -/
theorem covers_nil : covers [] extent separator path = extent.accepts separator path := by
  simp [covers, remainders]

/-- A mask with a leading `*` covers a path when the rest of the mask covers some suffix of it. -/
theorem covers_cons_run :
    covers ('*' :: mask) extent separator path ↔
      ∃ rest, rest <:+ path ∧ mask.covers extent separator rest := by
  simp only [covers_iff, describes_run]
  constructor
  · rintro ⟨_, rest, rfl, ⟨run, described, rfl, language⟩, accepted⟩
    exact ⟨described ++ rest, ⟨run, (List.append_assoc ..).symm⟩, described, rest, rfl, language,
      accepted⟩
  · rintro ⟨_, ⟨run, rfl⟩, described, rest, rfl, language, accepted⟩
    exact ⟨run ++ described, rest, (List.append_assoc ..).symm, ⟨run, described, rfl, language⟩,
      accepted⟩

/-- A mask with another leading symbol covers a path when the symbol takes the first character
    and the rest of the mask covers what is behind it. -/
theorem covers_cons_of_ne (notRun : symbol ≠ '*') :
    covers (symbol :: mask) extent separator path ↔
      ∃ first rest, path = first :: rest ∧ (symbol = '?' ∨ symbol = first) ∧
        mask.covers extent separator rest := by
  simp only [covers_iff, describes_cons_of_ne notRun]
  constructor
  · rintro ⟨_, rest, rfl, ⟨first, described, rfl, takes, language⟩, accepted⟩
    exact ⟨first, described ++ rest, rfl, takes, described, rest, rfl, language, accepted⟩
  · rintro ⟨first, _, rfl, takes, described, rest, rfl, language, accepted⟩
    exact ⟨first :: described, rest, rfl, ⟨first, described, rfl, takes, language⟩, accepted⟩

end Symbols

end PathSieve.Mask
