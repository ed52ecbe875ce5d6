import PathSieve.Proofs.Pruning

/-!
# The one spelling of a character

Lists of phrases are cut up as they are written, masks and paths are compared as they are
spelled. That the two do not get into each other's way rests on the table of capitals. This
module says what it takes: a spelling is final, as `normalizeChar_normalizeChar` says, and it
is a separator, a blank or a delimiter exactly when the character itself is one.

The table is asked run by run. A character that has a meaning of its own in lists, masks or
paths is a mark; no run moves a mark or moves anything to one, which
`capital_eq_or_not_isMark` puts in terms of characters. No run moves what another has moved.
-/

namespace PathSieve

namespace Text

/-- Closed ranges of the scalar values of marks: blanks, wildcards, delimiters and separators. -/
def markRanges : List (Nat × Nat) :=
  blankRanges ++ [(0x2A, 0x2A), (0x2F, 0x2F), (0x3B, 0x3B), (0x3F, 0x3F), (0x5C, 0x5C)]

/-- A mark has a meaning of its own in a list of phrases, in a mask or in a path. -/
def isMark (character : Char) : Bool :=
  markRanges.any fun (first, last) =>
    first ≤ character.toNat && character.toNat ≤ last

/-- Blanks are marks. -/
theorem isMark_of_isBlank {character : Char} (blank : isBlank character) : isMark character := by
  rw [isMark, markRanges, List.any_append, Bool.or_eq_true]
  exact .inl blank

/-- A character is no mark exactly when it lies outside all of their ranges. -/
theorem isMark_eq_false_iff {character : Char} : isMark character = false ↔
    ∀ range ∈ markRanges, character.toNat < range.1 ∨ range.2 < character.toNat := by
  simp only [isMark, List.any_eq_false, Bool.and_eq_true, decide_eq_true_eq,
    Decidable.not_and_iff_not_or_not, Nat.not_le]

namespace CaseRun

/-- The scalar value of the last capital of a run. -/
def lastImage (run : CaseRun) : Nat :=
  run.image + (run.last - run.first)

/-- Whether neither a run nor its capitals meet a range of scalar values. -/
def isClearOf (run : CaseRun) (range : Nat × Nat) : Bool :=
  (run.last < range.1 || range.2 < run.first) &&
    (run.lastImage < range.1 || range.2 < run.image)

/-- Whether no capital of a run is moved again. It is enough to look up the run for the first
    capital, provided that it reaches as far as the last one: either it begins behind them
    all, or every second value is a capital and it moves the values between. -/
def isFinal (run : CaseRun) : Bool :=
  match caseRuns.find? (run.image ≤ ·.last) with
  | none => true
  | some next =>
    run.lastImage ≤ next.last &&
      (run.lastImage < next.first ||
        next.step == 2 && (run.step == 2 || run.first == run.last) &&
          (run.image + next.first) % 2 == 1)

/-- A run moves the values that it reaches in its steps. -/
theorem moves_iff {run : CaseRun} {value : Nat} :
    run.moves value ↔
      run.first ≤ value ∧ value ≤ run.last ∧ (value - run.first) % run.step = 0 := by
  simp [moves, and_assoc]

end CaseRun

/-- Every capital is a scalar value: none is a surrogate and none lies beyond the last. -/
theorem caseRuns_valid : ∀ run ∈ caseRuns,
    run.lastImage < 0xD800 ∨ 0xDFFF < run.image ∧ run.lastImage < 0x110000 := by
  decide +kernel

/-- No run moves a mark or moves a character to one. -/
theorem caseRuns_isClearOf_marks : ∀ run ∈ caseRuns, ∀ range ∈ markRanges,
    run.isClearOf range := by
  decide +kernel

/-- No run moves the capitals of a run. -/
theorem caseRuns_isFinal : ∀ run ∈ caseRuns, run.isFinal := by
  decide +kernel

/-- No upper-case form that is kept as several characters is only one. -/
theorem expansions_are_long : ∀ expansion ∈ expansions, 1 < expansion.2.length := by
  decide

/-- A character has a capital other than itself only by its upper-case form of one character. -/
theorem capital_eq_or_simpleUppercase (character : Char) :
    capital character = character ∨ capital character = simpleUppercase character := by
  rw [capital, uppercase]
  cases found : expansions.lookup character.toNat with
  | none => exact .inr rfl
  | some form =>
    obtain ⟨before, after, split, _⟩ := List.lookup_eq_some_iff.mp found
    have long : 1 < form.length :=
      expansions_are_long (character.toNat, form) (split ▸ List.mem_append_right _ List.mem_cons_self)
    match form, long with
    | _ :: _ :: _, _ => exact .inl rfl

/-- A capital is the character itself, or a run moves the character to it. -/
theorem capital_eq_or_moved (character : Char) :
    capital character = character ∨
      ∃ run ∈ caseRuns, run.moves character.toNat ∧
        (capital character).toNat = run.image + (character.toNat - run.first) := by
  rcases capital_eq_or_simpleUppercase character with kept | simple
  · exact .inl kept
  rw [simple, simpleUppercase]
  split
  · next run found =>
    split
    · next moved =>
      have member : run ∈ caseRuns := List.mem_of_find?_eq_some found
      obtain ⟨_, within, _⟩ := CaseRun.moves_iff.mp moved
      have scalar : (run.image + (character.toNat - run.first)).isValidChar := by
        have valid := caseRuns_valid run member
        simp only [CaseRun.lastImage] at valid
        unfold Nat.isValidChar
        omega
      refine .inr ⟨run, member, moved, ?_⟩
      rw [Char.ofNat, dif_pos scalar]
      rfl
    · exact .inl rfl
  · exact .inl rfl

/-- Only characters without a meaning of their own have other capitals, and these have no
    meaning of their own either. -/
theorem capital_eq_or_not_isMark (character : Char) :
    capital character = character ∨
      isMark character = false ∧ isMark (capital character) = false := by
  refine (capital_eq_or_moved character).imp_right ?_
  rintro ⟨run, member, moved, image⟩
  obtain ⟨begins, ends, _⟩ := CaseRun.moves_iff.mp moved
  have clearOf (range : Nat × Nat) (mark : range ∈ markRanges) :
      (run.last < range.1 ∨ range.2 < run.first) ∧
        (run.lastImage < range.1 ∨ range.2 < run.image) := by
    simpa [CaseRun.isClearOf] using caseRuns_isClearOf_marks run member range mark
  have furthest : (capital character).toNat ≤ run.lastImage := by
    rw [image, CaseRun.lastImage]
    omega
  rw [isMark_eq_false_iff, isMark_eq_false_iff]
  constructor
  · intro range mark
    obtain ⟨runClear, _⟩ := clearOf range mark
    omega
  · intro range mark
    obtain ⟨_, imagesClear⟩ := clearOf range mark
    omega

/-- A mark is the capital of itself alone. -/
theorem capital_eq_mark_iff {mark : Char} (marked : isMark mark) (character : Char) :
    capital character = mark ↔ character = mark := by
  constructor
  · intro same
    rcases capital_eq_or_not_isMark character with kept | ⟨_, unmarked⟩
    · exact kept.symm.trans same
    · rw [same, marked] at unmarked
      exact absurd unmarked (by decide)
  · rintro rfl
    rcases capital_eq_or_not_isMark character with kept | ⟨unmarked, _⟩
    · exact kept
    · rw [marked] at unmarked
      exact absurd unmarked (by decide)

/-- A run that is looked up for a value is looked up for every later one that it reaches. -/
theorem find?_of_reaches {low value : Nat} {run : CaseRun}
    (found : caseRuns.find? (low ≤ ·.last) = some run) (above : low ≤ value)
    (reaches : value ≤ run.last) : caseRuns.find? (value ≤ ·.last) = some run := by
  obtain ⟨_, before, after, split, earlier⟩ := List.find?_eq_some_iff_append.mp found
  refine List.find?_eq_some_iff_append.mpr ⟨by simpa using reaches, before, after, split, ?_⟩
  intro other member
  have short := earlier other member
  simp only [Bool.not_eq_true', decide_eq_false_iff_not] at short ⊢
  omega

/-- The run that is looked up for a capital does not move it. -/
theorem CaseRun.not_moves_image {run next : CaseRun} {value : Nat} (member : run ∈ caseRuns)
    (moved : run.moves value)
    (found : caseRuns.find? (run.image + (value - run.first) ≤ ·.last) = some next) :
    next.moves (run.image + (value - run.first)) = false := by
  have final := caseRuns_isFinal run member
  obtain ⟨begins, ends, aligned⟩ := moves_iff.mp moved
  unfold isFinal lastImage at final
  split at final
  · next none =>
    have short := List.find?_eq_none.mp none next (List.mem_of_find?_eq_some found)
    have reached := List.find?_some found
    simp only [decide_eq_true_eq] at short reached
    omega
  · next other lookedUp =>
    simp only [Bool.and_eq_true, Bool.or_eq_true, decide_eq_true_eq, beq_iff_eq] at final
    obtain ⟨reaches, apart⟩ := final
    have same : caseRuns.find? (run.image + (value - run.first) ≤ ·.last) = some other :=
      find?_of_reaches lookedUp (by omega) (by omega)
    obtain rfl : next = other := Option.some.inj (found.symm.trans same)
    rw [← Bool.not_eq_true, moves_iff]
    rintro ⟨nextBegins, _, nextAligned⟩
    rcases apart with behind | ⟨⟨nextStep, single⟩, odd⟩
    · omega
    · rw [nextStep] at nextAligned
      rcases single with step | once
      · rw [step] at aligned
        omega
      · omega

/-- The capital of a capital is that capital. -/
theorem capital_capital (character : Char) :
    capital (capital character) = capital character := by
  rcases capital_eq_or_moved character with same | ⟨run, member, moved, image⟩
  · rw [same, same]
  · rcases capital_eq_or_simpleUppercase (capital character) with kept | simple
    · exact kept
    rw [simple, simpleUppercase]
    split
    · next next found =>
      rw [image] at found ⊢
      simp [CaseRun.not_moves_image member moved found]
    · rfl

end Text

namespace Platform

open Text

variable {platform : Platform} {character : Char}

/-- Only the two slashes separate, on any platform. -/
theorem eq_slash_of_isSeparator (separates : platform.IsSeparator character) :
    character = '/' ∨ character = '\\' := by
  rcases separates with rfl | alternate
  · cases platform <;> decide
  · cases platform with
    | posix => simp [alternate?] at alternate
    | macos => simp [alternate?] at alternate
    | windows => exact .inl (Option.some.inj alternate).symm

/-- Separators are marks. -/
theorem isMark_of_isSeparator (separates : platform.IsSeparator character) :
    isMark character := by
  rcases eq_slash_of_isSeparator separates with rfl | rfl <;> decide

/-- Separators are no blanks. -/
theorem isBlank_of_isSeparator (separates : platform.IsSeparator character) :
    isBlank character = false := by
  rcases eq_slash_of_isSeparator separates with rfl | rfl <;> decide

/-- Separators are no delimiters. -/
theorem isDelimiter_of_isSeparator (separates : platform.IsSeparator character) :
    Phrase.isDelimiter character = false := by
  rcases eq_slash_of_isSeparator separates with rfl | rfl <;> decide

/-- A character that is no separator is spelled with its capital where case does not matter
    and as itself elsewhere. -/
theorem normalizeChar_of_not_isSeparator (other : ¬ platform.IsSeparator character) :
    platform.normalizeChar character =
      if platform.foldsCase then capital character else character := by
  have notAlternate : platform.alternate? ≠ some character := fun same => other (.inr same)
  rw [normalizeChar, if_neg notAlternate]

/-- Only characters without a meaning of their own and the second separator have other
    spellings. -/
theorem normalizeChar_cases (platform : Platform) (character : Char) :
    platform.IsSeparator character ∧ platform.normalizeChar character = platform.separator ∨
      platform.normalizeChar character = character ∨
        isMark character = false ∧ isMark (platform.normalizeChar character) = false := by
  by_cases separates : platform.IsSeparator character
  · exact .inl ⟨separates, normalizeChar_of_isSeparator separates⟩
  · rw [normalizeChar_of_not_isSeparator separates]
    split
    · exact .inr (capital_eq_or_not_isMark character)
    · exact .inr (.inl rfl)

/-- A character is spelled as the separator exactly when it separates. -/
theorem normalizeChar_eq_separator_iff :
    platform.normalizeChar character = platform.separator ↔ platform.IsSeparator character := by
  refine ⟨fun same => ?_, normalizeChar_of_isSeparator⟩
  rcases normalizeChar_cases platform character with ⟨separates, _⟩ | kept | ⟨_, unmarked⟩
  · exact separates
  · exact .inl (kept.symm.trans same)
  · have marked : isMark platform.separator := isMark_of_isSeparator (.inl rfl)
    rw [same, marked] at unmarked
    exact absurd unmarked (by decide)

/-- A character is spelled as a mark other than a separator exactly when it is that mark. -/
theorem normalizeChar_eq_mark_iff {mark : Char} (marked : isMark mark)
    (apart : ¬ platform.IsSeparator mark) :
    platform.normalizeChar character = mark ↔ character = mark := by
  constructor
  · rintro rfl
    rcases normalizeChar_cases platform character with ⟨_, same⟩ | kept | ⟨_, unmarked⟩
    · exact absurd (.inl same) apart
    · exact kept.symm
    · exact absurd (unmarked.symm.trans marked) (by decide)
  · rintro rfl
    rcases normalizeChar_cases platform character with ⟨separates, _⟩ | kept | ⟨unmarked, _⟩
    · exact absurd separates apart
    · exact kept
    · exact absurd (unmarked.symm.trans marked) (by decide)

/-- A character is spelled as a wildcard exactly when it is that wildcard. -/
theorem normalizeChar_eq_wildcard_iff {wildcard : Char} (wild : wildcard = '*' ∨ wildcard = '?') :
    platform.normalizeChar character = wildcard ↔ character = wildcard := by
  have marked : isMark wildcard := by
    rcases wild with rfl | rfl <;> decide
  have apart : ¬ platform.IsSeparator wildcard := by
    rcases wild with rfl | rfl <;> cases platform <;> decide
  exact normalizeChar_eq_mark_iff marked apart

/-- The separator is not read as another one. -/
theorem alternate?_ne_separator (platform : Platform) :
    platform.alternate? ≠ some platform.separator := by
  cases platform <;> decide

/-- A character is its own spelling when it is not read as the separator and, where case does
    not matter, is its own capital. -/
theorem normalizeChar_eq_self_iff :
    platform.normalizeChar character = character ↔
      platform.alternate? ≠ some character ∧
        (platform.foldsCase → Text.capital character = character) := by
  by_cases alternate : platform.alternate? = some character
  · have changed : platform.normalizeChar character ≠ character := by
      rw [normalizeChar_of_isSeparator (.inr alternate)]
      rintro rfl
      exact platform.alternate?_ne_separator alternate
    exact iff_of_false changed fun kept => kept.1 alternate
  · rw [normalizeChar, if_neg alternate]
    cases platform.foldsCase with
    | true => simp [alternate]
    | false => simp [alternate]

/-- A class of marks other than the separators has a character exactly when it has the
    spelling of the character. -/
theorem class_normalizeChar {holds : Char → Bool}
    (marks : ∀ character, holds character → isMark character)
    (apart : ∀ character, platform.IsSeparator character → holds character = false) :
    holds (platform.normalizeChar character) = holds character := by
  rcases normalizeChar_cases platform character with ⟨separates, same⟩ | kept | ⟨plain, spelled⟩
  · rw [same, apart character separates, apart platform.separator (.inl rfl)]
  · rw [kept]
  · have outside (other : Char) (unmarked : isMark other = false) : holds other = false := by
      rw [← Bool.not_eq_true] at unmarked ⊢
      exact fun held => unmarked (marks other held)
    rw [outside _ plain, outside _ spelled]

/-- The spelling of a character is blank exactly when the character is. -/
@[simp] theorem isBlank_normalizeChar (platform : Platform) (character : Char) :
    isBlank (platform.normalizeChar character) = isBlank character :=
  class_normalizeChar (fun _ => isMark_of_isBlank) (fun _ => isBlank_of_isSeparator)

/-- The spelling of a character is a delimiter exactly when the character is. -/
@[simp] theorem isDelimiter_normalizeChar (platform : Platform) (character : Char) :
    Phrase.isDelimiter (platform.normalizeChar character) = Phrase.isDelimiter character := by
  refine class_normalizeChar (fun other delimits => ?_) (fun _ => isDelimiter_of_isSeparator)
  have either : other = ';' ∨ other = '\n' := by
    simpa [Phrase.isDelimiter] using delimits
  rcases either with rfl | rfl <;> decide

/-- The spelling of a spelling is that spelling. -/
@[simp] theorem normalizeChar_normalizeChar (platform : Platform) (character : Char) :
    platform.normalizeChar (platform.normalizeChar character) =
      platform.normalizeChar character := by
  by_cases separates : platform.IsSeparator character
  · rw [normalizeChar_of_isSeparator separates, normalizeChar_of_isSeparator (.inl rfl)]
  · have stillOther : ¬ platform.IsSeparator (platform.normalizeChar character) := by
      intro spelled
      rcases normalizeChar_cases platform character with ⟨already, _⟩ | kept | ⟨_, unmarked⟩
      · exact separates already
      · exact separates (kept ▸ spelled)
      · rw [isMark_of_isSeparator spelled] at unmarked
        exact absurd unmarked (by decide)
    rw [normalizeChar_of_not_isSeparator stillOther, normalizeChar_of_not_isSeparator separates]
    cases platform.foldsCase with
    | true => exact capital_capital character
    | false => rfl

/-- A text in normal spelling is spelled that way. -/
@[simp] theorem normalize_normalize (platform : Platform) (text : Text) :
    platform.normalize (platform.normalize text) = platform.normalize text := by
  simp [normalize]

/-- A path is spelled with a separator where it has one, and what stands before and behind
    that is spelled by itself. -/
theorem normalize_eq_append_separator_iff {path before below : Text} :
    platform.normalize path = before ++ platform.separator :: below ↔
      ∃ folder joiner rest, path = folder ++ joiner :: rest ∧ platform.IsSeparator joiner ∧
        platform.normalize folder = before ∧ platform.normalize rest = below := by
  constructor
  · intro split
    obtain ⟨folder, behind, rfl, spelled, behindSpelled⟩ := List.map_eq_append_iff.mp split
    obtain ⟨joiner, rest, rfl, separates, restSpelled⟩ := List.map_eq_cons_iff.mp behindSpelled
    exact ⟨folder, joiner, rest, rfl, normalizeChar_eq_separator_iff.mp separates, spelled,
      restSpelled⟩
  · rintro ⟨folder, joiner, rest, rfl, separates, rfl, rfl⟩
    exact normalize_below separates folder rest

end Platform

end PathSieve
