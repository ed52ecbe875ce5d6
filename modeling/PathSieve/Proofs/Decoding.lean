import PathSieve.PhraseFile
import PathSieve.Proofs.Encoding

/-!
# Decoding phrase files

A phrase file is read as a whole or not at all. This module says that the text it gives is the one
whose encoding the file holds, octet by octet, and that otherwise the report names the file and
the place where the longest well-formed beginning of its octets ends: `read_exact`.

The argument is about pieces. Any octets are the encoding of some text with a rest behind it that
is empty or begins with a flawed piece (`exists_encode_append`). Decoding gives the text in
the first case and counts its octets in the second. No other text goes further
(`length_encode_le`), because the encoding of a character in front of anything is cut off as
that character, and what begins with a flawed piece begins with no character.
-/

namespace PathSieve

namespace Text.Utf8

variable {text : Text} {octets rest : List UInt8}

/-- The encoding of a character in front of octets is cut off as that character. -/
theorem pieces_utf8EncodeChar_append (character : Char) (rest : List UInt8) :
    pieces (String.utf8EncodeChar character ++ rest) =
      .character character (String.utf8EncodeChar character) :: pieces rest := by
  obtain ⟨first, found, split, cut⟩ := firstPiece_of_encodes (encodes_toNat character) rest
  rw [Char.ofNat_toNat] at cut
  have whole := octets_append_drop first (found ++ rest)
  rw [cut, Piece.octets, ← List.cons_append, ← split] at whole
  rw [split, List.cons_append, pieces, cut, Piece.octets, List.append_cancel_left whole, split]

/-- What is cut off as a character is the encoding of that character. -/
theorem eq_utf8EncodeChar_of_firstPiece {first : UInt8} {character : Char}
    (cut : firstPiece first rest = .character character octets) :
    octets = String.utf8EncodeChar character := by
  obtain ⟨_, rfl, encodes⟩ := encodes_of_firstPiece cut
  exact (utf8EncodeChar_of_encodes encodes).symm

/-- The encoding of a text begins with that of its first character. -/
theorem encode_cons (character : Char) (text : Text) :
    encode (character :: text) = String.utf8EncodeChar character ++ encode text :=
  List.flatMap_cons

/-- Decoding takes the encoding of a text off the front and counts its octets. -/
theorem characters_encode_append (index : Nat) (text : Text) (rest : List UInt8) :
    characters index (pieces (encode text ++ rest)) =
      (characters (index + (encode text).length) (pieces rest)).map (text ++ ·) := by
  induction text generalizing index with
  | nil => exact (congrFun Except.map_id _).symm
  | cons character text inductionHypothesis =>
    rw [encode_cons, List.append_assoc, pieces_utf8EncodeChar_append, characters,
      inductionHypothesis, List.length_append, Nat.add_assoc]
    generalize characters _ (pieces rest) = found
    cases found <;> rfl

/-- Octets begin with a flawed piece: no character is cut off in front. -/
def BeginsFlawed (octets : List UInt8) : Prop :=
  ∃ flaw cutShort behind, pieces octets = .flawed flaw cutShort :: behind

/-- Octets are the encoding of a text with a rest behind it that is empty or begins with a flawed
    piece: cutting goes on for as long as it finds characters. -/
theorem exists_encode_append (octets : List UInt8) :
    ∃ text rest, octets = encode text ++ rest ∧ (rest = [] ∨ BeginsFlawed rest) := by
  fun_induction pieces octets with
  | case1 => exact ⟨[], [], rfl, .inl rfl⟩
  | case2 first behind piece inductionHypothesis =>
    cases cut : piece with
    | flawed flaw cutShort =>
      refine ⟨[], first :: behind, rfl, .inr
        ⟨flaw, cutShort, pieces (behind.drop (piece.octets.length - 1)), ?_⟩⟩
      rw [pieces]
      exact congrArg (· :: _) cut
    | character character found =>
      obtain ⟨text, rest, split, ends⟩ := inductionHypothesis
      refine ⟨character :: text, rest, ?_, ends⟩
      have whole : piece.octets ++ behind.drop (piece.octets.length - 1) = first :: behind :=
        octets_append_drop first behind
      rw [← whole, split, cut, Piece.octets, eq_utf8EncodeChar_of_firstPiece cut, encode_cons,
        List.append_assoc]

/-- Where a text is followed by a rest that is empty or begins with a flawed piece, no text whose
    encoding stands in front has more octets. The texts agree for as long as both go on, and
    the other one ends first or in the same place. -/
theorem length_encode_le {other : Text} (ends : rest = [] ∨ BeginsFlawed rest)
    (begins : encode other <+: encode text ++ rest) :
    (encode other).length ≤ (encode text).length := by
  rcases ends with rfl | ⟨flaw, cutShort, behind, flawed⟩
  · rw [List.append_nil] at begins
    exact begins.length_le
  induction text generalizing other with
  | nil =>
    cases other with
    | nil => exact Nat.le_refl _
    | cons character other =>
      obtain ⟨further, split⟩ := begins
      have cut := congrArg pieces split
      rw [encode_cons, List.append_assoc, pieces_utf8EncodeChar_append] at cut
      exact absurd (List.cons.inj (cut.trans flawed)).1 Piece.noConfusion
  | cons character text inductionHypothesis =>
    cases other with
    | nil => exact Nat.zero_le _
    | cons first other =>
      obtain ⟨further, split⟩ := begins
      rw [encode_cons, encode_cons, List.append_assoc, List.append_assoc] at split
      have cut := congrArg pieces split
      rw [pieces_utf8EncodeChar_append, pieces_utf8EncodeChar_append] at cut
      obtain ⟨rfl, _⟩ := Piece.character.inj (List.cons.inj cut).1
      have shorter := inductionHypothesis ⟨further, List.append_cancel_left split⟩
      rw [encode_cons, encode_cons, List.length_append, List.length_append]
      exact Nat.add_le_add_left shorter _

/-- The encoding of a text decodes to that text. -/
theorem decode_encode (text : Text) : decode (encode text) = .ok text := by
  have counted := characters_encode_append 0 text []
  rw [List.append_nil, pieces, characters] at counted
  exact counted.trans (congrArg Except.ok (List.append_nil text))

/-- Where a flawed piece follows a text, decoding stops behind the octets of the text. -/
theorem decode_encode_append (text : Text) (flawed : BeginsFlawed rest) :
    ∃ fault, decode (encode text ++ rest) = .error fault ∧
      fault.index = (encode text).length := by
  obtain ⟨flaw, cutShort, behind, cut⟩ := flawed
  refine ⟨⟨(encode text).length, flaw.length, cutShort⟩, ?_, rfl⟩
  rw [decode, characters_encode_append, cut, characters, Nat.zero_add]
  rfl

/-- Octets decode to a text exactly when they are its encoding. -/
theorem decode_eq_ok_iff : decode octets = .ok text ↔ octets = encode text := by
  constructor
  · intro decoded
    obtain ⟨other, rest, rfl, rfl | flawed⟩ := exists_encode_append octets
    · rw [List.append_nil, decode_encode] at decoded
      rw [List.append_nil, Except.ok.inj decoded]
    · obtain ⟨fault, stopped, _⟩ := decode_encode_append other flawed
      rw [stopped] at decoded
      cases decoded
  · rintro rfl
    exact decode_encode text

/-- Octets that are not well formed decode to a fault whose index is the length of their longest
    well-formed beginning. -/
theorem exists_fault_of_not_isWellFormed (illFormed : ¬ IsWellFormed octets) :
    ∃ fault, decode octets = .error fault ∧ fault.index ≤ octets.length ∧
      IsWellFormed (octets.take fault.index) ∧
      ∀ start, start <+: octets → IsWellFormed start → start.length ≤ fault.index := by
  obtain ⟨text, rest, rfl, ends⟩ := exists_encode_append octets
  have notEmpty : rest ≠ [] := by
    rintro rfl
    exact illFormed (isWellFormed_iff.mpr ⟨text, List.append_nil _⟩)
  obtain ⟨fault, stopped, index⟩ := decode_encode_append text (ends.resolve_left notEmpty)
  refine ⟨fault, stopped, ?_, ?_, ?_⟩
  · rw [index, List.length_append]
    exact Nat.le_add_right _ _
  · rw [index, List.take_left]
    exact isWellFormed_iff.mpr ⟨text, rfl⟩
  · intro start begins wellFormed
    obtain ⟨other, rfl⟩ := isWellFormed_iff.mp wellFormed
    rw [index]
    exact length_encode_le ends begins

end Text.Utf8

namespace PhraseFile

open Text.Utf8

/-- Of a file that can be opened the octets are decoded. -/
theorem read_of_readable {files : Files} {name : Name} {octets : List UInt8}
    (readable : files name = .ok octets) : read files name = decode name octets := by
  rw [read, readable]

/-- A phrase file that can be opened is read exactly or not at all. It gives a text exactly when
    its octets are the encoding of the text, of which nothing is stripped. If the octets are
    not well formed, the fault bears the name of the file, and its index is the length of
    the longest beginning of the octets that is well formed. -/
theorem read_exact {files : Files} {name : Name} {octets : List UInt8}
    (readable : files name = .ok octets) :
    (∀ text, read files name = .ok text ↔ octets = encode text) ∧
      (IsWellFormed octets ↔ ∃ text, octets = encode text) ∧
      (¬ IsWellFormed octets → ∃ fault, read files name = .error (.encoding name fault) ∧
        fault.index ≤ octets.length ∧ IsWellFormed (octets.take fault.index) ∧
        ∀ start, start <+: octets → IsWellFormed start → start.length ≤ fault.index) := by
  rw [read_of_readable readable, decode]
  refine ⟨fun text => ?_, isWellFormed_iff, fun illFormed => ?_⟩
  · rw [← decode_eq_ok_iff]
    cases Text.Utf8.decode octets with
    | ok found => constructor <;> exact fun same => congrArg Except.ok (Except.ok.inj same)
    | error fault => constructor <;> intro same <;> cases same
  · obtain ⟨fault, stopped, longest⟩ := exists_fault_of_not_isWellFormed illFormed
    refine ⟨fault, ?_, longest⟩
    rw [stopped]
    rfl

/-- A byte order mark, a carriage return and a zero are read as they stand. In another file half of
    a pair behind a letter of two octets is refused, and the report counts these two. -/
theorem read_exact_of_marks_and_halves :
    let marked := encode "skip.txt".toList
    let broken := encode "old/skip.txt".toList
    let marks := "\uFEFF*.bak\r\n\x00".toList
    let halves : List UInt8 := [0xC3, 0xA4, 0xED, 0xA0, 0x80]
    let files : Files := fun name =>
      if name = marked then .ok (encode marks)
      else if name = broken then .ok halves
      else .error "No such file or directory (os error 2)".toList
    files marked = .ok (encode marks) ∧ read files marked = .ok marks ∧
      files broken = .ok halves ∧ ¬ IsWellFormed halves ∧
      ∃ fault, read files broken = .error (.encoding broken fault) ∧ fault.index = 2 ∧
        ∀ start, start <+: halves → IsWellFormed start → start.length ≤ 2 := by
  intro marked broken marks halves files
  have flawed : BeginsFlawed [0xED, 0xA0, 0x80] := by
    refine ⟨[0xED], false, pieces [0xA0, 0x80], ?_⟩
    rw [pieces]
    rfl
  obtain ⟨half, stopped, index⟩ := decode_encode_append ['ä'] flawed
  have illFormed : ¬ IsWellFormed halves := by
    rw [isWellFormed_iff]
    rintro ⟨text, same⟩
    cases stopped.symm.trans (decode_eq_ok_iff.mpr same)
  have opened : files marked = .ok (encode marks) := if_pos rfl
  have openedBroken : files broken = .ok halves :=
    (if_neg (by decide)).trans (if_pos rfl)
  obtain ⟨texts, _⟩ := read_exact opened
  obtain ⟨_, _, faults⟩ := read_exact openedBroken
  obtain ⟨fault, refused, _, _, longest⟩ := faults illFormed
  have two : fault.index = 2 := by
    rw [read_of_readable openedBroken, decode] at refused
    cases (congrArg (Except.mapError _) stopped).symm.trans refused
    exact index
  exact ⟨opened, (texts marks).mpr rfl, openedBroken, illFormed, fault, refused, two,
    two ▸ longest⟩

end PhraseFile

end PathSieve
