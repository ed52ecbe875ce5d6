import PathSieve.Text.Utf8

/-!
# Well-formed UTF-8

The Unicode standard has a table of the octet sequences that encode a scalar value: how
the first octet tells their number, in which ranges the others lie, and which ranges are
narrower, so that no value has a longer encoding than it needs, no surrogate has one and
nothing beyond the last scalar value has one. `Encodes` is that table, `IsWellFormed` says
that octets consist of such sequences.

This module holds encoding and cutting to the table. Every character is encoded by the sequence
that the table has for it (`encodes_toNat`) and by no other (`utf8EncodeChar_of_encodes`), so
well-formed octets are those that encode a text (`isWellFormed_iff`). What is cut off as a
character is such a sequence (`encodes_of_firstPiece`), and where one stands in front it is
cut off (`firstPiece_of_encodes`). The leads that cutting looks up are taken apart by the
number of octets that follow them; only there do the narrower ranges have to be told apart.
-/

namespace PathSieve.Text.Utf8

/-- The sequences of octets that encode a number by the standard's table, in the order of their
    lengths. The first octet and six bits of each further one make up the number. -/
inductive Encodes (value : Nat) : List UInt8 → Prop where
  | one {first : UInt8} (leads : first.toNat < 0x80) (sum : value = first.toNat) :
    Encodes value [first]
  | two {first second : UInt8} (leads : 0xC2 ≤ first.toNat ∧ first.toNat < 0xE0)
    (follows : 0x80 ≤ second.toNat ∧ second.toNat ≤ 0xBF)
    (sum : value = (first.toNat - 0xC0) * 64 + (second.toNat - 0x80)) :
    Encodes value [first, second]
  | three {first second third : UInt8} (leads : 0xE0 ≤ first.toNat ∧ first.toNat < 0xF0)
    (follows : 0x80 ≤ second.toNat ∧ second.toNat ≤ 0xBF)
    (notOverlong : first.toNat = 0xE0 → 0xA0 ≤ second.toNat)
    (noSurrogate : first.toNat = 0xED → second.toNat ≤ 0x9F)
    (ends : 0x80 ≤ third.toNat ∧ third.toNat ≤ 0xBF)
    (sum : value = ((first.toNat - 0xE0) * 64 + (second.toNat - 0x80)) * 64 +
      (third.toNat - 0x80)) :
    Encodes value [first, second, third]
  | four {first second third fourth : UInt8} (leads : 0xF0 ≤ first.toNat ∧ first.toNat ≤ 0xF4)
    (follows : 0x80 ≤ second.toNat ∧ second.toNat ≤ 0xBF)
    (notOverlong : first.toNat = 0xF0 → 0x90 ≤ second.toNat)
    (notBeyond : first.toNat = 0xF4 → second.toNat ≤ 0x8F)
    (continues : 0x80 ≤ third.toNat ∧ third.toNat ≤ 0xBF)
    (ends : 0x80 ≤ fourth.toNat ∧ fourth.toNat ≤ 0xBF)
    (sum : value = (((first.toNat - 0xF0) * 64 + (second.toNat - 0x80)) * 64 +
      (third.toNat - 0x80)) * 64 + (fourth.toNat - 0x80)) :
    Encodes value [first, second, third, fourth]

/-- Octets are well formed when they consist of sequences that encode a number each. -/
inductive IsWellFormed : List UInt8 → Prop where
  | nil : IsWellFormed []
  | append {value : Nat} {sequence rest : List UInt8} (encodes : Encodes value sequence)
    (wellFormed : IsWellFormed rest) : IsWellFormed (sequence ++ rest)

/-- A character is encoded by a sequence that the table has for it. -/
theorem encodes_toNat (character : Char) :
    Encodes character.toNat (String.utf8EncodeChar character) := by
  have valid : character.toNat.isValidChar := character.valid
  have same : character.val.toNat = character.toNat := rfl
  unfold Nat.isValidChar at valid
  simp only [String.utf8EncodeChar, same]
  split
  · apply Encodes.one <;> simp only [UInt8.toNat_ofNat'] <;> omega
  split
  · apply Encodes.two <;> simp only [UInt8.toNat_ofNat'] <;> omega
  split
  · apply Encodes.three <;> simp only [UInt8.toNat_ofNat'] <;> omega
  · apply Encodes.four <;> simp only [UInt8.toNat_ofNat'] <;> omega

section Table

variable {value : Nat} {octets : List UInt8}

/-- The table has no sequences for numbers that are no scalar values. -/
theorem isValidChar_of_encodes (encodes : Encodes value octets) : value.isValidChar := by
  unfold Nat.isValidChar
  cases encodes <;> omega

/-- A sequence of the table is the encoding of the character whose number it encodes. Which length
    the encoding has follows from the ranges, and the octets from the number. -/
theorem utf8EncodeChar_of_encodes (encodes : Encodes value octets) :
    String.utf8EncodeChar (Char.ofNat value) = octets := by
  have same : (Char.ofNat value).val.toNat = value := by
    rw [Char.ofNat, dif_pos (isValidChar_of_encodes encodes)]
    rfl
  simp only [String.utf8EncodeChar, same]
  cases encodes with
  | one leads sum =>
    rw [if_pos (by omega)]
    simp only [List.cons.injEq, and_true, ← UInt8.toNat_inj, UInt8.toNat_ofNat']
    omega
  | two leads follows sum =>
    rw [if_neg (by omega), if_pos (by omega)]
    simp only [List.cons.injEq, and_true, ← UInt8.toNat_inj, UInt8.toNat_ofNat']
    omega
  | three leads follows notOverlong noSurrogate ends sum =>
    rw [if_neg (by omega), if_neg (by omega), if_pos (by omega)]
    simp only [List.cons.injEq, and_true, ← UInt8.toNat_inj, UInt8.toNat_ofNat']
    omega
  | four leads follows notOverlong notBeyond continues ends sum =>
    rw [if_neg (by omega), if_neg (by omega), if_neg (by omega)]
    simp only [List.cons.injEq, and_true, ← UInt8.toNat_inj, UInt8.toNat_ofNat']
    omega

/-- Well-formed octets are those that encode a text. -/
theorem isWellFormed_iff : IsWellFormed octets ↔ ∃ text, octets = encode text := by
  constructor
  · intro wellFormed
    induction wellFormed with
    | nil => exact ⟨[], rfl⟩
    | @append value sequence rest encodes _ inductionHypothesis =>
      obtain ⟨text, rfl⟩ := inductionHypothesis
      refine ⟨Char.ofNat value :: text, ?_⟩
      rw [encode, encode, List.flatMap_cons, utf8EncodeChar_of_encodes encodes]
  · rintro ⟨text, rfl⟩
    induction text with
    | nil => exact .nil
    | cons character text inductionHypothesis =>
      rw [encode, List.flatMap_cons]
      exact .append (encodes_toNat character) inductionHypothesis

end Table

section Leads

variable {octet : Nat}

/-- An octet below 80 stands alone. -/
theorem lead?_of_one (leads : octet < 0x80) : lead? octet = some ⟨octet, []⟩ :=
  if_pos leads

/-- After an octet from C2 to DF one follows. -/
theorem lead?_of_two (leads : 0xC2 ≤ octet ∧ octet < 0xE0) :
    lead? octet = some ⟨octet - 0xC0, [continuation]⟩ := by
  rw [lead?, if_neg (by omega), if_neg (by omega), if_pos (by omega)]

/-- After an octet from E0 to EF two follow, the first of them in a range without what would be
    overlong or a surrogate. -/
theorem lead?_of_three (leads : 0xE0 ≤ octet ∧ octet < 0xF0) : ∃ low high,
    lead? octet = some ⟨octet - 0xE0, [(low, high), continuation]⟩ ∧
      ∀ second, low ≤ second ∧ second ≤ high ↔ (0x80 ≤ second ∧ second ≤ 0xBF) ∧
        (octet = 0xE0 → 0xA0 ≤ second) ∧ (octet = 0xED → second ≤ 0x9F) := by
  rw [lead?, if_neg (by omega), if_neg (by omega), if_neg (by omega)]
  by_cases overlong : octet = 0xE0
  · subst overlong
    exact ⟨_, _, rfl, by omega⟩
  by_cases surrogates : octet = 0xED
  · subst surrogates
    exact ⟨_, _, rfl, by omega⟩
  · rw [if_neg overlong, if_neg surrogates, if_pos leads.2]
    exact ⟨_, _, rfl, by omega⟩

/-- After an octet from F0 to F4 three follow, the first of them in a range without what would be
    overlong or beyond the last scalar value. -/
theorem lead?_of_four (leads : 0xF0 ≤ octet ∧ octet ≤ 0xF4) : ∃ low high,
    lead? octet = some ⟨octet - 0xF0, [(low, high), continuation, continuation]⟩ ∧
      ∀ second, low ≤ second ∧ second ≤ high ↔ (0x80 ≤ second ∧ second ≤ 0xBF) ∧
        (octet = 0xF0 → 0x90 ≤ second) ∧ (octet = 0xF4 → second ≤ 0x8F) := by
  rw [lead?, if_neg (by omega), if_neg (by omega), if_neg (by omega), if_neg (by omega),
    if_neg (by omega), if_neg (by omega)]
  by_cases overlong : octet = 0xF0
  · subst overlong
    exact ⟨_, _, rfl, by omega⟩
  by_cases last : octet = 0xF4
  · subst last
    exact ⟨_, _, rfl, by omega⟩
  · rw [if_neg overlong, if_pos (by omega)]
    exact ⟨_, _, rfl, by omega⟩

/-- Octets from 80 to C1 and beyond F4 begin nothing. -/
theorem lead?_eq_none (outside : 0x80 ≤ octet ∧ octet < 0xC2 ∨ 0xF4 < octet) :
    lead? octet = none := by
  rcases outside with ⟨notSmall, follows⟩ | beyond
  · rw [lead?, if_neg (by omega), if_pos follows]
  · simp (disch := omega) only [lead?, if_neg]

end Leads

/-- Where every range is filled, the first octet lies in the first range and the others fill the
    other ranges. -/
theorem fitting_cons_full {range : Nat × Nat} {ranges : List (Nat × Nat)} {octets : List UInt8}
    (full : (fitting (range :: ranges) octets).length = (range :: ranges).length) :
    ∃ octet rest, octets = octet :: rest ∧ (range.1 ≤ octet.toNat ∧ octet.toNat ≤ range.2) ∧
      (fitting ranges rest).length = ranges.length ∧
      fitting (range :: ranges) octets = octet :: fitting ranges rest := by
  cases octets with
  | nil => simp [fitting] at full
  | cons octet rest =>
    by_cases inside : range.1 ≤ octet.toNat ∧ octet.toNat ≤ range.2
    · rw [fitting, if_pos inside] at full
      exact ⟨octet, rest, rfl, inside, Nat.succ.inj full, by rw [fitting, if_pos inside]⟩
    · simp [fitting, inside] at full

section FirstPiece

variable {value : Nat} {octets rest : List UInt8} {first : UInt8} {character : Char}

/-- A sequence of the table is cut off as the character that it encodes. -/
theorem firstPiece_of_encodes (encodes : Encodes value octets) (rest : List UInt8) :
    ∃ first found, octets = first :: found ∧
      firstPiece first (found ++ rest) = .character (Char.ofNat value) octets := by
  cases encodes with
  | @one first leads sum =>
    refine ⟨first, [], rfl, ?_⟩
    simp [firstPiece, lead?_of_one leads, fitting, Lead.value, sum]
  | @two first second leads follows sum =>
    refine ⟨first, [second], rfl, ?_⟩
    have total : (first.toNat - 0xC0) * 64 + second.toNat % 64 = value := by omega
    simp [firstPiece, lead?_of_two leads, fitting, continuation, follows, Lead.value, total]
  | @three first second third leads follows notOverlong noSurrogate ends sum =>
    refine ⟨first, [second, third], rfl, ?_⟩
    obtain ⟨low, high, announced, range⟩ := lead?_of_three leads
    have inside := (range second.toNat).mpr ⟨follows, notOverlong, noSurrogate⟩
    have total : ((first.toNat - 0xE0) * 64 + second.toNat % 64) * 64 + third.toNat % 64 =
        value := by omega
    simp [firstPiece, announced, fitting, continuation, inside, ends, Lead.value, total]
  | @four first second third fourth leads follows notOverlong notBeyond continues ends sum =>
    refine ⟨first, [second, third, fourth], rfl, ?_⟩
    obtain ⟨low, high, announced, range⟩ := lead?_of_four leads
    have inside := (range second.toNat).mpr ⟨follows, notOverlong, notBeyond⟩
    have total : (((first.toNat - 0xF0) * 64 + second.toNat % 64) * 64 + third.toNat % 64) * 64 +
        fourth.toNat % 64 = value := by omega
    simp [firstPiece, announced, fitting, continuation, inside, continues, ends, Lead.value, total]

/-- A character is cut off where a lead is looked up for the first octet and all its ranges are
    filled. -/
theorem exists_lead_of_firstPiece (cut : firstPiece first rest = .character character octets) :
    ∃ lead, lead? first.toNat = some lead ∧
      (fitting lead.following rest).length = lead.following.length ∧
      character = Char.ofNat (lead.value (fitting lead.following rest)) ∧
      octets = first :: fitting lead.following rest := by
  unfold firstPiece at cut
  split at cut
  · cases cut
  · next lead announced =>
    dsimp only at cut
    split at cut
    · next full =>
      obtain ⟨rfl, rfl⟩ := Piece.character.inj cut
      exact ⟨lead, announced, full, rfl, rfl⟩
    · cases cut

/-- What is cut off as a character is a sequence of the table for it. The first octet decides how
    many ranges there are to be filled. -/
theorem encodes_of_firstPiece (cut : firstPiece first rest = .character character octets) :
    ∃ value, character = Char.ofNat value ∧ Encodes value octets := by
  obtain ⟨lead, announced, full, rfl, rfl⟩ := exists_lead_of_firstPiece cut
  refine ⟨_, rfl, ?_⟩
  by_cases outside : 0x80 ≤ first.toNat ∧ first.toNat < 0xC2 ∨ 0xF4 < first.toNat
  · rw [lead?_eq_none outside] at announced
    cases announced
  by_cases one : first.toNat < 0x80
  · obtain rfl := Option.some.inj (announced.symm.trans (lead?_of_one one))
    exact .one one rfl
  by_cases two : first.toNat < 0xE0
  · have leads : 0xC2 ≤ first.toNat ∧ first.toNat < 0xE0 := by omega
    obtain rfl := Option.some.inj (announced.symm.trans (lead?_of_two leads))
    obtain ⟨second, behind, rfl, follows, _, found⟩ := fitting_cons_full full
    rw [found]
    refine .two leads follows ?_
    simp only [continuation, Lead.value, fitting, List.foldl_cons, List.foldl_nil] at follows ⊢
    omega
  by_cases three : first.toNat < 0xF0
  · have leads : 0xE0 ≤ first.toNat ∧ first.toNat < 0xF0 := by omega
    obtain ⟨low, high, known, range⟩ := lead?_of_three leads
    obtain rfl := Option.some.inj (announced.symm.trans known)
    obtain ⟨second, behind, rfl, inside, full, found⟩ := fitting_cons_full full
    obtain ⟨third, behind, rfl, ends, _, foundThird⟩ := fitting_cons_full full
    obtain ⟨follows, notOverlong, noSurrogate⟩ := (range _).mp inside
    rw [found, foundThird]
    refine .three leads follows notOverlong noSurrogate ends ?_
    simp only [continuation, Lead.value, fitting, List.foldl_cons, List.foldl_nil] at ends ⊢
    omega
  · have leads : 0xF0 ≤ first.toNat ∧ first.toNat ≤ 0xF4 := by omega
    obtain ⟨low, high, known, range⟩ := lead?_of_four leads
    obtain rfl := Option.some.inj (announced.symm.trans known)
    obtain ⟨second, behind, rfl, inside, full, found⟩ := fitting_cons_full full
    obtain ⟨third, behind, rfl, continues, full, foundThird⟩ := fitting_cons_full full
    obtain ⟨fourth, behind, rfl, ends, _, foundFourth⟩ := fitting_cons_full full
    obtain ⟨follows, notOverlong, notBeyond⟩ := (range _).mp inside
    rw [found, foundThird, foundFourth]
    refine .four leads follows notOverlong notBeyond continues ends ?_
    simp only [continuation, Lead.value, fitting, List.foldl_cons, List.foldl_nil]
      at continues ends ⊢
    omega

end FirstPiece

end PathSieve.Text.Utf8
