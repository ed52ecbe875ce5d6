import PathSieve.Json.Reader

/-!
# Every spelling is read

Whatever text stands for a value is read as that value: `parse?_of_spells`. So a text
stands for one value at most (`eq_of_spells`).

A reader takes its part off the front of a longer text, so every lemma here is about a part
with anything behind it. Only a number asks for something there: what follows must not go on
with it, or the reader would take more. Inside a JSON text a gap, a comma or a closing mark
follows, and none of these does.

The readers of values count their steps down. `IsRead` asks for more steps than the part
has characters, which leaves enough for every part in it, since each is shorter by a
mark at least. The proof of `isRead` is by induction on the spelling, with one lemma on
series (`readSeries_last`, `readSeries_further`) for items and members alike.
-/

namespace PathSieve.Json

/-- Nothing is dropped in front of a character that has a meaning. -/
theorem skipGap_of_not_isGap {character : Char} (stands : isGap character = false)
    (rest : Text) : skipGap (character :: rest) = character :: rest := by
  rw [skipGap, List.dropWhile_cons_of_neg]
  simp [stands]

/-- A gap is dropped. -/
theorem skipGap_append {gap : Text} (blank : Gap gap) (rest : Text) :
    skipGap (gap ++ rest) = skipGap rest :=
  List.dropWhile_append_of_pos blank

/-! ## Strings -/

section Strings

variable {start inside value : Text} {character : Char}

/-- However a character is written in a string, it is read as itself. -/
theorem readString_character (spelled : SpellsCharacter start character) (rest : Text) :
    readString (start ++ rest) = (readString rest).map (Prod.map (character :: ·) id) := by
  cases spelled with
  | plain visible notQuote notBackslash =>
    rw [List.singleton_append, readString.eq_4 character rest notQuote
      (fun _ _ _ _ _ same _ => notBackslash same) (fun _ _ same _ => notBackslash same),
      if_neg (Nat.not_lt.mpr visible)]
  | @letter letter _ stands =>
    have notNumber : letter ≠ 'u' := by
      rintro rfl
      cases stands
    rw [List.cons_append, List.singleton_append,
      readString.eq_3 letter rest fun _ _ _ _ _ same _ => notNumber same, stands]
    rfl
  | unit number notUpper notLower =>
    simp [readString, number, notUpper, notLower]
  | pair first isUpper second isLower =>
    simp [readString, first, isUpper, second, isLower]

/-- A string is read up to its closing quote. -/
theorem readString_inside (spelled : SpellsString inside value) (rest : Text) :
    readString (inside ++ '"' :: rest) = some (value, rest) := by
  induction spelled with
  | nil => rw [List.nil_append, readString]
  | cons first _ inductionHypothesis =>
    rw [List.append_assoc, readString_character first, inductionHypothesis]
    rfl

end Strings

/-! ## Numbers -/

/-- A text does not begin with a character of a kind. -/
def Avoids (kind : Char → Bool) (text : Text) : Prop :=
  ∀ first ∈ text.head?, kind first = false

/-- Whether a number that could end here may go on with a character. -/
def continuesNumber (character : Char) : Bool :=
  character.isDigit || character == '.' || isExponentMark character

section Numbers

variable {digits whole fraction exponent magnitude literal rest : Text} {character : Char}

/-- A text avoids a kind if its first character is not of that kind. -/
theorem avoids_cons {kind : Char → Bool} (other : kind character = false) (rest : Text) :
    Avoids kind (character :: rest) := by
  rintro _ ⟨⟩
  exact other

/-- What does not go on with a number does not go on with digits. -/
theorem Avoids.isDigit (ends : Avoids continuesNumber rest) : Avoids Char.isDigit rest := by
  intro first starts
  have other := ends first starts
  simp only [continuesNumber, Bool.or_eq_false_iff] at other
  exact other.1.1

/-- The mark of a power of ten is no digit. -/
theorem not_isDigit_of_isExponentMark (marks : isExponentMark character) :
    character.isDigit = false := by
  rcases (by simpa [isExponentMark] using marks : character = 'e' ∨ character = 'E') with
    rfl | rfl <;> rfl

/-- A digit is no sign. -/
theorem not_isSign_of_isDigit (decimal : character.isDigit) : isSign character = false := by
  rw [isSign, Bool.or_eq_false_iff, beq_eq_false_iff_ne, beq_eq_false_iff_ne]
  constructor <;> rintro rfl <;> cases decimal

/-- Digits have a first one. -/
theorem IsDigits.exists_cons (given : IsDigits digits) :
    ∃ first others, digits = first :: others ∧ first.isDigit := by
  obtain ⟨first, others, rfl⟩ := List.exists_cons_of_ne_nil given.nonempty
  exact ⟨first, others, rfl, given.decimal first List.mem_cons_self⟩

/-- Digits are read up to what is no digit. -/
theorem readDigits_append (given : IsDigits digits) (ends : Avoids Char.isDigit rest) :
    readDigits (digits ++ rest) = some (digits, rest) := by
  have stops : rest.takeWhile Char.isDigit = [] ∧ rest.dropWhile Char.isDigit = rest := by
    cases rest with
    | nil => exact ⟨rfl, rfl⟩
    | cons first rest =>
      have other : first.isDigit = false := ends first rfl
      simp [other]
  rw [readDigits, List.takeWhile_append_of_pos given.decimal,
    List.dropWhile_append_of_pos given.decimal, stops.1, stops.2, List.append_nil,
    if_neg (by simpa using given.nonempty)]

/-- The whole part of a number is read up to what is no digit. -/
theorem readWhole_append (isWhole : IsWhole whole) (ends : Avoids Char.isDigit rest) :
    readWhole (whole ++ rest) = some (whole, rest) := by
  cases isWhole with
  | zero => rfl
  | digits given proper =>
    have read := readDigits_append given ends
    obtain ⟨first, others, rfl, _⟩ := given.exists_cons
    have notZero : first ≠ '0' := by simpa using proper
    rwa [List.cons_append, readWhole.eq_2 _ fun _ same => notZero (List.cons.inj same).1]

/-- The fraction of a number is read up to what is no digit, and no point where there is no
    fraction. -/
theorem readFraction_append (isFraction : IsFraction fraction) (ends : Avoids Char.isDigit rest)
    (noPoint : rest.head? ≠ some '.') : readFraction (fraction ++ rest) = some (fraction, rest) := by
  cases isFraction with
  | absent =>
    rw [List.nil_append, readFraction.eq_2]
    rintro behind rfl
    exact noPoint rfl
  | present given =>
    rw [List.cons_append, readFraction, readDigits_append given ends]
    rfl

/-- The power of ten that ends a number is read up to what would go on with the number. -/
theorem readExponent_append (isExponent : IsExponent exponent)
    (ends : Avoids continuesNumber rest) :
    readExponent (exponent ++ rest) = some (exponent, rest) := by
  cases isExponent with
  | absent =>
    cases rest with
    | nil => rfl
    | cons first rest =>
      have other := ends first rfl
      simp only [continuesNumber, Bool.or_eq_false_iff] at other
      simp [readExponent, other.2]
  | unsigned marks given =>
    have read := readDigits_append given ends.isDigit
    obtain ⟨first, others, rfl, decimal⟩ := given.exists_cons
    rw [List.cons_append] at read
    simp [readExponent, marks, readPower, not_isSign_of_isDigit decimal, read]
  | signed marks signs given =>
    simp [readExponent, marks, readPower, signs, readDigits_append given ends.isDigit]

/-- The power of ten goes on neither with digits nor with a point. -/
theorem exponent_avoids (isExponent : IsExponent exponent) (ends : Avoids continuesNumber rest) :
    Avoids Char.isDigit (exponent ++ rest) ∧ (exponent ++ rest).head? ≠ some '.' := by
  cases isExponent with
  | absent =>
    refine ⟨ends.isDigit, fun point => ?_⟩
    cases ends _ point
  | unsigned marks | signed marks =>
    refine ⟨avoids_cons (not_isDigit_of_isExponentMark marks) _, fun point => ?_⟩
    cases Option.some.inj point
    cases marks

/-- The fraction does not go on with digits, if nothing behind it does. -/
theorem fraction_avoids (isFraction : IsFraction fraction) (ends : Avoids Char.isDigit rest) :
    Avoids Char.isDigit (fraction ++ rest) := by
  cases isFraction with
  | absent => exact ends
  | present => exact avoids_cons rfl _

/-- A number without a sign is read up to what would go on with it. -/
theorem readMagnitude_append (given : IsMagnitude magnitude) (ends : Avoids continuesNumber rest) :
    readMagnitude (magnitude ++ rest) = some (magnitude, rest) := by
  obtain ⟨isWhole, isFraction, isExponent⟩ := given
  obtain ⟨noDigit, noPoint⟩ := exponent_avoids isExponent ends
  have wholeRead := readWhole_append isWhole (fraction_avoids isFraction noDigit)
  simp only [readMagnitude, List.append_assoc, wholeRead, Option.bind_eq_bind, Option.bind_some,
    readFraction_append isFraction noDigit noPoint, readExponent_append isExponent ends]

/-- A number without a sign begins with a digit. -/
theorem IsMagnitude.exists_cons (given : IsMagnitude magnitude) :
    ∃ first others, magnitude = first :: others ∧ first.isDigit := by
  obtain ⟨isWhole, _, _⟩ := given
  cases isWhole with
  | zero => exact ⟨'0', _, rfl, rfl⟩
  | digits given =>
    obtain ⟨first, others, rfl, decimal⟩ := given.exists_cons
    exact ⟨first, _, rfl, decimal⟩

/-- A number is read up to what would go on with it. -/
theorem readNumber_append (given : IsNumber literal) (ends : Avoids continuesNumber rest) :
    readNumber (literal ++ rest) = some (literal, rest) := by
  cases given with
  | positive given =>
    have read := readMagnitude_append given ends
    obtain ⟨first, others, rfl, decimal⟩ := given.exists_cons
    rw [List.cons_append] at read ⊢
    rw [readNumber.eq_2, read]
    rintro _ same
    cases (List.cons.inj same).1
    cases decimal
  | negative given =>
    rw [List.cons_append, readNumber, readMagnitude_append given ends]
    rfl

/-- A number begins with a digit or with the sign in front of one. -/
theorem IsNumber.exists_cons (given : IsNumber literal) :
    ∃ first others, literal = first :: others ∧ (first.isDigit ∨ first = '-') := by
  cases given with
  | positive given =>
    obtain ⟨first, others, rfl, decimal⟩ := given.exists_cons
    exact ⟨first, others, rfl, .inl decimal⟩
  | negative => exact ⟨_, _, rfl, .inr rfl⟩

end Numbers

/-! ## Values and series -/

/-- Whether a character closes an array or an object. -/
def isClosing (character : Char) : Bool :=
  character == ']' || character == '\x7d'

/-- What closes is a bracket or a brace. -/
theorem eq_or_eq_of_isClosing {character : Char} (closes : isClosing character) :
    character = ']' ∨ character = '\x7d' := by
  simpa [isClosing] using closes

/-- A text begins with a character that has a meaning, but closes nothing. -/
def Opens (text : Text) : Prop :=
  ∃ first behind, text = first :: behind ∧ isGap first = false ∧ isClosing first = false

/-- A digit is no gap and closes nothing. -/
theorem opens_of_isDigit {digit : Char} (decimal : digit.isDigit) (behind : Text) :
    Opens (digit :: behind) := by
  refine ⟨digit, behind, rfl, ?_, ?_⟩
  · simp only [isGap, Bool.or_eq_false_iff, beq_eq_false_iff_ne]
    refine ⟨⟨⟨?_, ?_⟩, ?_⟩, ?_⟩ <;> rintro rfl <;> cases decimal
  · simp only [isClosing, Bool.or_eq_false_iff, beq_eq_false_iff_ne]
    constructor <;> rintro rfl <;> cases decimal

/-- A value by itself opens with its first character. -/
theorem opens_of_value {text : Text} {value : Json} (spelled : Spelling text (.value value)) :
    Opens text := by
  cases spelled with
  | null | yes | no | string | emptyArray | array | emptyObject | object =>
    exact ⟨_, _, rfl, rfl, rfl⟩
  | number given =>
    obtain ⟨first, others, rfl, decimal | rfl⟩ := given.exists_cons
    · exact opens_of_isDigit decimal others
    · exact ⟨_, _, rfl, rfl, rfl⟩

/-- A text opens with a gap in front. -/
def OpensBehindGap (text : Text) : Prop :=
  ∃ gap inner, text = gap ++ inner ∧ Gap gap ∧ Opens inner

/-- What opens does so with anything behind it. -/
theorem OpensBehindGap.append {text : Text} (opens : OpensBehindGap text) (behind : Text) :
    OpensBehindGap (text ++ behind) := by
  obtain ⟨gap, inner, rfl, blank, first, others, rfl, stands⟩ := opens
  exact ⟨gap, first :: others ++ behind, List.append_assoc _ _ _, blank,
    first, others ++ behind, rfl, stands⟩

/-- A value with gaps round it opens behind a gap. -/
theorem opensBehindGap_of_padded {text : Text} {value : Json} (spelled : Spells text value) :
    OpensBehindGap text := by
  cases spelled with
  | padded start inner =>
    exact OpensBehindGap.append ⟨_, _, rfl, start, opens_of_value inner⟩ _

/-- The items of an array open behind a gap. -/
theorem opensBehindGap_of_items {text : Text} {first : Json} {others : List Json}
    (spelled : Spelling text (.items first others)) : OpensBehindGap text := by
  cases spelled with
  | lastItem item => exact opensBehindGap_of_padded item
  | furtherItem item => exact (opensBehindGap_of_padded item).append _

/-- A member of an object opens behind a gap, with its name. -/
theorem opensBehindGap_of_member {text : Text} {member : Text × Json}
    (spelled : Spelling text (.member member)) : OpensBehindGap text := by
  cases spelled with
  | @member before inside behind text name value start =>
    exact ⟨before, '"' :: (inside ++ '"' :: behind ++ ':' :: text), by simp, start,
      _, _, rfl, rfl, rfl⟩

/-- The members of an object open behind a gap. -/
theorem opensBehindGap_of_members {text : Text} {first : Text × Json}
    {others : List (Text × Json)} (spelled : Spelling text (.members first others)) :
    OpensBehindGap text := by
  cases spelled with
  | lastMember member => exact opensBehindGap_of_member member
  | furtherMember member => exact (opensBehindGap_of_member member).append _

/-- A gap does not go on with a number. -/
theorem avoids_of_gap {gap rest : Text} (blank : Gap gap) (ends : Avoids continuesNumber rest) :
    Avoids continuesNumber (gap ++ rest) := by
  cases gap with
  | nil => exact ends
  | cons first gap =>
    have kinds : ((first = ' ' ∨ first = '\t') ∨ first = '\n') ∨ first = '\x0d' := by
      simpa [isGap] using blank first List.mem_cons_self
    rcases kinds with ((rfl | rfl) | rfl) | rfl <;> exact avoids_cons rfl _

section Series

variable {Entry : Type} {readEntry : (steps : Nat) → Text → Option (Entry × Text)} {close : Char}
  {text gap rest : Text} {entry : Entry} {entries : List Entry}

/-- An entry is read up to a gap, in any number of steps that is greater than its length and with
    anything behind it that does not go on with a number. -/
def IsReadEntry (readEntry : (steps : Nat) → Text → Option (Entry × Text)) (text : Text)
    (entry : Entry) : Prop :=
  ∀ steps rest, text.length < steps → Avoids continuesNumber rest →
    ∃ gap, Gap gap ∧ readEntry steps (text ++ rest) = some (entry, gap ++ rest)

/-- A series is read up to the mark that closes it, with more steps for each entry and for the series
    than its length. -/
def IsReadSeries (readEntry : (steps : Nat) → Text → Option (Entry × Text)) (close : Char)
    (text : Text) (entries : List Entry) : Prop :=
  ∀ steps count rest, text.length < steps → text.length < count →
    readSeries (readEntry steps) close count (text ++ close :: rest) = some (entries, rest)

/-- A series ends with an entry that the closing mark follows. -/
theorem IsReadEntry.last (closes : isClosing close)
    (read : IsReadEntry readEntry text entry) : IsReadSeries readEntry close text [entry] := by
  intro steps count rest enough enoughEntries
  have stands : isGap close = false ∧ continuesNumber close = false := by
    rcases eq_or_eq_of_isClosing closes with rfl | rfl <;> exact ⟨rfl, rfl⟩
  obtain ⟨gap, blank, readFirst⟩ := read steps (close :: rest) enough (avoids_cons stands.2 rest)
  obtain ⟨count, rfl⟩ := Nat.exists_eq_succ_of_ne_zero (Nat.ne_zero_of_lt enoughEntries)
  simp [readSeries, readFirst, skipGap_append blank, skipGap_of_not_isGap stands.1]

/-- A series goes on behind an entry that a comma follows. -/
theorem IsReadEntry.further (closes : isClosing close) {others : Text}
    (read : IsReadEntry readEntry text entry)
    (readOthers : IsReadSeries readEntry close others entries) :
    IsReadSeries readEntry close (text ++ ',' :: others) (entry :: entries) := by
  intro steps count rest enough enoughEntries
  simp only [List.length_append, List.length_cons] at enough enoughEntries
  have notComma : ',' ≠ close := by
    rintro rfl
    cases closes
  obtain ⟨gap, blank, readFirst⟩ := read steps (',' :: (others ++ close :: rest)) (by omega)
    (avoids_cons rfl _)
  obtain ⟨count, rfl⟩ := Nat.exists_eq_succ_of_ne_zero (Nat.ne_zero_of_lt enoughEntries)
  have readRest := readOthers steps count rest (by omega) (by omega)
  have comma : ∀ rest, skipGap (',' :: rest) = ',' :: rest := skipGap_of_not_isGap rfl
  simp [readSeries, readFirst, skipGap_append blank, comma, notComma, readRest]

/-- A series that opens before the closing mark is read where it could be empty. -/
theorem IsReadSeries.readEntries (closes : isClosing close)
    (read : IsReadSeries readEntry close text entries) (opens : OpensBehindGap text) {steps : Nat}
    (enough : text.length < steps) (rest : Text) :
    Json.readEntries (readEntry steps) close steps (text ++ close :: rest) =
      some (entries, rest) := by
  have readAll := read steps steps rest enough enough
  obtain ⟨gap, _, rfl, blank, first, others, rfl, stands, closesNothing⟩ := opens
  have other : first ≠ close := by
    rintro rfl
    exact Bool.false_ne_true (closesNothing.symm.trans closes)
  rw [← readAll]
  simp [Json.readEntries, skipGap_append blank, skipGap_of_not_isGap stands, other]

/-- Where there is only a gap before the closing mark, there are no entries. -/
theorem readEntries_gap (closes : isClosing close) (blank : Gap gap)
    (readFirst : Text → Option (Entry × Text)) (steps : Nat) (rest : Text) :
    readEntries readFirst close steps (gap ++ close :: rest) = some ([], rest) := by
  have stands : isGap close = false := by
    rcases eq_or_eq_of_isClosing closes with rfl | rfl <;> rfl
  simp [readEntries, skipGap_append blank, skipGap_of_not_isGap stands]

end Series

/-- Read a value behind a gap. -/
def readPadded (steps : Nat) (text : Text) : Option (Json × Text) :=
  readValue steps (skipGap text)

/-- How a part of a JSON text is read. -/
def IsRead (text : Text) : Part → Prop
  | .value value => ∀ steps rest, text.length ≤ steps → Avoids continuesNumber rest →
      readValue (steps + 1) (text ++ rest) = some (value, rest)
  | .padded value => IsReadEntry readPadded text value
  | .items first others => IsReadSeries readPadded ']' text (first :: others)
  | .member member => IsReadEntry (fun steps => readMember (readValue steps)) text member
  | .members first others =>
      IsReadSeries (fun steps => readMember (readValue steps)) '\x7d' text (first :: others)

/-- A number is read as a value of its own. -/
theorem readValue_number {literal rest : Text} (given : IsNumber literal)
    (ends : Avoids continuesNumber rest) (steps : Nat) :
    readValue (steps + 1) (literal ++ rest) = some (.number literal, rest) := by
  have read := readNumber_append given ends
  obtain ⟨first, others, rfl, kind⟩ := given.exists_cons
  have otherKinds : ∀ character ∈ ['\x7b', '[', '"', 'n', 't', 'f'],
      ¬ (character.isDigit ∨ character = '-') := by
    simp [Char.isDigit]
  have other : ∀ character ∈ ['\x7b', '[', '"', 'n', 't', 'f'], first ≠ character := by
    rintro _ within rfl
    exact otherKinds first within kind
  simp only [List.forall_mem_cons] at other
  obtain ⟨notBrace, notBracket, notQuote, notNull, notTrue, notFalse, _⟩ := other
  have noWord : readWord (first :: (others ++ rest)) = none := by
    simp [readWord, Text.after?, notNull, notTrue, notFalse]
  rw [List.cons_append] at read ⊢
  rw [readValue.eq_5 _ steps (fun _ same => notBrace (List.cons.inj same).1)
    (fun _ same => notBracket (List.cons.inj same).1)
    (fun _ same => notQuote (List.cons.inj same).1), noWord, read]
  rfl

/-- A member is read as its name and its value. -/
theorem isReadEntry_member {before inside behind text name : Text} {value : Json}
    (start : Gap before) (named : SpellsString inside name) (finish : Gap behind)
    (read : IsReadEntry readPadded text value) :
    IsReadEntry (fun steps => readMember (readValue steps))
      (before ++ '"' :: inside ++ '"' :: behind ++ ':' :: text) (name, value) := by
  intro steps rest enough ends
  simp only [List.length_append, List.length_cons] at enough
  obtain ⟨gap, blank, readInner⟩ := read steps rest (by omega) ends
  refine ⟨gap, blank, ?_⟩
  have quote : ∀ rest, skipGap ('"' :: rest) = '"' :: rest := skipGap_of_not_isGap rfl
  have colon : ∀ rest, skipGap (':' :: rest) = ':' :: rest := skipGap_of_not_isGap rfl
  rw [readPadded] at readInner
  simp [readMember, skipGap_append start, quote, Text.after?, readString_inside named,
    skipGap_append finish, colon, readInner]

/-- A value with gaps round it is read as the value, up to the gap behind it. -/
theorem isReadEntry_padded {before text behind : Text} {value : Json} (start : Gap before)
    (spelled : Spelling text (.value value)) (read : IsRead text (.value value))
    (finish : Gap behind) : IsReadEntry readPadded (before ++ text ++ behind) value := by
  intro steps rest enough ends
  obtain ⟨steps, rfl⟩ := Nat.exists_eq_succ_of_ne_zero (Nat.ne_zero_of_lt enough)
  simp only [List.length_append] at enough
  have readInner := read steps _ (by omega) (avoids_of_gap finish ends)
  obtain ⟨first, others, rfl, stands, _⟩ := opens_of_value spelled
  refine ⟨behind, finish, ?_⟩
  rw [readPadded, List.append_assoc, List.append_assoc, skipGap_append start, List.cons_append,
    skipGap_of_not_isGap stands]
  exact readInner

/-- Every part of a JSON text is read as what it stands for. -/
theorem isRead {text : Text} {part : Part} (spelled : Spelling text part) : IsRead text part := by
  induction spelled with
  | null | yes | no =>
    intro steps rest _ _
    rfl
  | number given =>
    intro steps rest _ ends
    exact readValue_number given ends steps
  | string inner =>
    intro steps rest _ _
    simp [readValue, readString_inside inner]
  | emptyArray blank =>
    intro steps rest _ _
    have closes : isClosing ']' := rfl
    simp [readValue, readEntries_gap closes blank]
  | array inner inductionHypothesis =>
    intro steps rest enough _
    simp only [List.length_append, List.length_cons] at enough
    have opens := opensBehindGap_of_items inner
    have read : readEntries (readPadded steps) _ _ _ = _ :=
      inductionHypothesis.readEntries rfl opens (by omega) rest
    unfold readPadded at read
    simp [readValue, read]
  | emptyObject blank =>
    intro steps rest _ _
    have closes : isClosing '\x7d' := rfl
    simp [readValue, readEntries_gap closes blank]
  | object inner inductionHypothesis =>
    intro steps rest enough _
    simp only [List.length_append, List.length_cons] at enough
    have opens := opensBehindGap_of_members inner
    have read : readEntries (readMember (readValue steps)) _ _ _ = _ :=
      inductionHypothesis.readEntries rfl opens (by omega) rest
    simp [readValue, read]
  | padded start inner finish inductionHypothesis =>
    exact isReadEntry_padded start inner inductionHypothesis finish
  | lastItem _ itemRead => exact IsReadEntry.last rfl itemRead
  | furtherItem _ _ itemRead othersRead => exact IsReadEntry.further rfl itemRead othersRead
  | member start named finish _ inductionHypothesis =>
    exact isReadEntry_member start named finish inductionHypothesis
  | lastMember _ memberRead => exact IsReadEntry.last rfl memberRead
  | furtherMember _ _ memberRead othersRead =>
    exact IsReadEntry.further rfl memberRead othersRead

/-- A text that stands for a value is read as that value. -/
theorem parse?_of_spells {text : Text} {value : Json} (spelled : Spells text value) :
    parse? text = some value := by
  obtain ⟨gap, blank, read⟩ := isRead spelled (text.length + 1) [] (Nat.lt_succ_self _) nofun
  have nothing : skipGap gap = [] := by
    simpa [skipGap] using skipGap_append blank []
  rw [List.append_nil, List.append_nil, readPadded] at read
  simp [parse?, read, nothing]

/-- A text stands for one value at most. -/
theorem eq_of_spells {text : Text} {value other : Json} (spelled : Spells text value)
    (again : Spells text other) : value = other :=
  Option.some.inj ((parse?_of_spells spelled).symm.trans (parse?_of_spells again))

end PathSieve.Json
