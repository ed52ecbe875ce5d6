import PathSieve.Text.Basic

/-!
# UTF-8

Octets are read as UTF-8 by cutting them into pieces: a well-formed piece is the
encoding of one scalar value, and a flawed piece is the longest run that begins
a well-formed sequence without completing it, or a single octet that begins
none. The ranges are those of the Unicode standard's table of well-formed byte
sequences, so overlong forms, surrogates and values above U+10FFFF are flawed.

Exact decoding accepts octets without a flawed piece and otherwise reports the
first one; lenient decoding writes one replacement character for each.
`octets_append_drop` says that cutting off a piece loses nothing and reorders nothing.
-/

namespace PathSieve.Text.Utf8

/-- The octets that encode a text. -/
def encode (text : Text) : List UInt8 :=
  text.flatMap String.utf8EncodeChar

/-- What the first octet of a sequence announces: the bits of the scalar value that it
    carries, and the closed range of each octet that has to follow. -/
structure Lead where
  bits : Nat
  following : List (Nat × Nat)

/-- The range of an octet that follows, where nothing narrower is asked. -/
def continuation : Nat × Nat := (0x80, 0xBF)

/-- The announcement of a first octet, if it can begin a sequence at all. The octets
    E0, ED, F0 and F4 narrow the range of their successor. -/
def lead? (octet : Nat) : Option Lead :=
  if octet < 0x80 then some ⟨octet, []⟩
  else if octet < 0xC2 then none
  else if octet < 0xE0 then some ⟨octet - 0xC0, [continuation]⟩
  else if octet = 0xE0 then some ⟨0x0, [(0xA0, 0xBF), continuation]⟩
  else if octet = 0xED then some ⟨0xD, [(0x80, 0x9F), continuation]⟩
  else if octet < 0xF0 then some ⟨octet - 0xE0, [continuation, continuation]⟩
  else if octet = 0xF0 then some ⟨0x0, [(0x90, 0xBF), continuation, continuation]⟩
  else if octet < 0xF4 then
    some ⟨octet - 0xF0, [continuation, continuation, continuation]⟩
  else if octet = 0xF4 then some ⟨0x4, [(0x80, 0x8F), continuation, continuation]⟩
  else none

/-- The octets at the front that lie, one by one, in the ranges they have to. -/
def fitting : List (Nat × Nat) → List UInt8 → List UInt8
  | (low, high) :: ranges, octet :: rest =>
    if low ≤ octet.toNat ∧ octet.toNat ≤ high then octet :: fitting ranges rest else []
  | _, _ => []

/-- One cut of an octet sequence. -/
inductive Piece where
  /-- The encoding of one scalar value. -/
  | character (value : Char) (octets : List UInt8)
  /-- Octets that encode nothing; `cutShort` if only the end of the input broke them off. -/
  | flawed (octets : List UInt8) (cutShort : Bool)

/-- The octets a piece was cut from. -/
def Piece.octets : Piece → List UInt8
  | character _ octets => octets
  | flawed octets _ => octets

/-- The scalar value that a lead's bits and six bits of each following octet make up. -/
def Lead.value (lead : Lead) (octets : List UInt8) : Nat :=
  octets.foldl (fun value octet => value * 64 + octet.toNat % 64) lead.bits

/-- Cut the piece that begins with the octet `first`. -/
def firstPiece (first : UInt8) (rest : List UInt8) : Piece :=
  match lead? first.toNat with
  | none => .flawed [first] false
  | some lead =>
    let found := fitting lead.following rest
    if found.length = lead.following.length then
      .character (Char.ofNat (lead.value found)) (first :: found)
    else .flawed (first :: found) (found.length = rest.length)

/-- Cut octets into pieces, front to back. Each piece takes at least one octet. -/
def pieces : List UInt8 → List Piece
  | [] => []
  | first :: rest =>
    let piece := firstPiece first rest
    piece :: pieces (rest.drop (piece.octets.length - 1))
termination_by octets => octets.length
decreasing_by simp only [List.length_cons, List.length_drop]; omega

/-- Where decoding had to stop: the number of well-formed octets before, the length of
    the flawed piece, and whether the end of the input cut that piece short. -/
structure Fault where
  index : Nat
  length : Nat
  cutShort : Bool
deriving DecidableEq, Repr

/-- The description of a fault in words. -/
def Fault.message (fault : Fault) : Text :=
  if fault.cutShort then
    s!"incomplete utf-8 byte sequence from index {fault.index}".toList
  else
    s!"invalid utf-8 sequence of {fault.length} bytes from index {fault.index}".toList

/-- The characters of pieces that begin at an index, or the fault of the first flawed one. -/
def characters (index : Nat) : List Piece → Except Fault Text
  | [] => .ok []
  | .character value octets :: rest =>
    (characters (index + octets.length) rest).map (value :: ·)
  | .flawed octets cutShort :: _ => .error ⟨index, octets.length, cutShort⟩

/-- The text that octets encode, or the first fault. -/
def decode (octets : List UInt8) : Except Fault Text :=
  characters 0 (pieces octets)

/-- The character that stands for octets which encode nothing. -/
def replacement : Char := '\uFFFD'

/-- The text of octets with a replacement character for each flawed piece. -/
def decodeLeniently (octets : List UInt8) : Text :=
  (pieces octets).map fun
    | .character value _ => value
    | .flawed _ _ => replacement

/-- The fitting octets stand at the front. -/
theorem fitting_initial (ranges : List (Nat × Nat)) (octets : List UInt8) :
    fitting ranges octets <+: octets := by
  fun_induction fitting ranges octets with
  | case1 low high ranges octet rest inside inductionHypothesis =>
    exact List.cons_prefix_cons.mpr ⟨rfl, inductionHypothesis⟩
  | case2 => exact List.nil_prefix
  | case3 => exact List.nil_prefix

/-- The first piece is a nonempty run of octets at the front. -/
theorem firstPiece_octets (first : UInt8) (rest : List UInt8) :
    ∃ found, (firstPiece first rest).octets = first :: found ∧ found <+: rest := by
  unfold firstPiece
  split
  · exact ⟨[], rfl, List.nil_prefix⟩
  · rename_i lead _
    refine ⟨fitting lead.following rest, ?_, fitting_initial _ _⟩
    simp only
    split <;> rfl

/-- The first piece and what is cut further are the octets that were there. -/
theorem octets_append_drop (first : UInt8) (rest : List UInt8) :
    (firstPiece first rest).octets ++ rest.drop ((firstPiece first rest).octets.length - 1) =
      first :: rest := by
  obtain ⟨found, cut, tail, rfl⟩ := firstPiece_octets first rest
  rw [cut]
  simp

end PathSieve.Text.Utf8
