import PathSieve.Text.Basic

/-!
# JSON texts

What a JSON text stands for, said without a reader. A number stands for itself as it is
written, so that none is too great or too long, and the members of an object are kept in their
order, with repetitions.

`Json.Spells` relates a text to the value that it stands for. One value has many texts: gaps
may stand between the parts, and in a string every character may be written by its
number, some by a letter, and those that need two units of sixteen bits by a pair of
numbers.
-/

namespace PathSieve

/-- A JSON value. -/
inductive Json where
  | null
  | boolean (value : Bool)
  /-- A number as it is written. -/
  | number (literal : Text)
  | string (value : Text)
  | array (items : List Json)
  | object (members : List (Text × Json))
deriving Repr

namespace Json

/-- Whether a character may stand between the parts of a JSON text without a meaning. -/
def isGap (character : Char) : Bool :=
  character == ' ' || character == '\t' || character == '\n' || character == '\x0d'

/-- The value of a hexadecimal digit of either case. -/
def hexDigit? (character : Char) : Option Nat :=
  if '0' ≤ character ∧ character ≤ '9' then some (character.toNat - '0'.toNat)
  else if 'a' ≤ character ∧ character ≤ 'f' then some (character.toNat - 'a'.toNat + 10)
  else if 'A' ≤ character ∧ character ≤ 'F' then some (character.toNat - 'A'.toNat + 10)
  else none

/-- The value of a sequence of hexadecimal digits. -/
def hexValue? (digits : Text) : Option Nat :=
  digits.foldlM (fun value digit => (hexDigit? digit).map (value * 16 + ·)) 0

/-- The character that a letter or sign after a backslash stands for. -/
def unescape? : Char → Option Char
  | '"' => some '"'
  | '\\' => some '\\'
  | '/' => some '/'
  | 'b' => some '\x08'
  | 'f' => some '\x0c'
  | 'n' => some '\n'
  | 'r' => some '\x0d'
  | 't' => some '\t'
  | _ => none

/-- Whether a unit of sixteen bits is the upper half of a pair. -/
def isUpperHalf (unit : Nat) : Bool :=
  0xD800 ≤ unit && unit ≤ 0xDBFF

/-- Whether a unit of sixteen bits is the lower half of a pair. -/
def isLowerHalf (unit : Nat) : Bool :=
  0xDC00 ≤ unit && unit ≤ 0xDFFF

/-- The character that two halves stand for. -/
def joinHalves (upper lower : Nat) : Char :=
  Char.ofNat (0x10000 + (upper - 0xD800) * 0x400 + (lower - 0xDC00))

/-- What stands for a character between the quotes of a string. A control character stands only
    as an escape, and a half of a pair only beside the other half. -/
inductive SpellsCharacter : Text → Char → Prop where
  | plain {character : Char} (visible : 0x20 ≤ character.toNat) (notQuote : character ≠ '"')
      (notBackslash : character ≠ '\\') : SpellsCharacter [character] character
  | letter {letter character : Char} (stands : unescape? letter = some character) :
      SpellsCharacter ['\\', letter] character
  | unit {a b c d : Char} {unit : Nat} (value : hexValue? [a, b, c, d] = some unit)
      (notUpper : isUpperHalf unit = false) (notLower : isLowerHalf unit = false) :
      SpellsCharacter ['\\', 'u', a, b, c, d] (Char.ofNat unit)
  | pair {a b c d e f g h : Char} {upper lower : Nat}
      (first : hexValue? [a, b, c, d] = some upper) (isUpper : isUpperHalf upper)
      (second : hexValue? [e, f, g, h] = some lower) (isLower : isLowerHalf lower) :
      SpellsCharacter ['\\', 'u', a, b, c, d, '\\', 'u', e, f, g, h] (joinHalves upper lower)

/-- What stands for a text between the quotes of a string. -/
inductive SpellsString : Text → Text → Prop where
  | nil : SpellsString [] []
  | cons {start inside value : Text} {character : Char}
      (first : SpellsCharacter start character) (others : SpellsString inside value) :
      SpellsString (start ++ inside) (character :: value)

/-- Decimal digits, of which there has to be one. -/
structure IsDigits (digits : Text) : Prop where
  nonempty : digits ≠ []
  decimal : ∀ digit ∈ digits, digit.isDigit

/-- The whole part of a number. It begins with a zero only if the zero is all of it. -/
inductive IsWhole : Text → Prop where
  | zero : IsWhole ['0']
  | digits {digits : Text} (given : IsDigits digits) (proper : digits.head? ≠ some '0') :
      IsWhole digits

/-- What may follow the whole part of a number: a point and digits. -/
inductive IsFraction : Text → Prop where
  | absent : IsFraction []
  | present {digits : Text} (given : IsDigits digits) : IsFraction ('.' :: digits)

/-- The sign of a power of ten. -/
def isSign (character : Char) : Bool :=
  character == '+' || character == '-'

/-- The mark of a power of ten. -/
def isExponentMark (character : Char) : Bool :=
  character == 'e' || character == 'E'

/-- What may end a number: a power of ten. -/
inductive IsExponent : Text → Prop where
  | absent : IsExponent []
  | unsigned {mark : Char} {digits : Text} (marks : isExponentMark mark)
      (given : IsDigits digits) : IsExponent (mark :: digits)
  | signed {mark sign : Char} {digits : Text} (marks : isExponentMark mark) (signs : isSign sign)
      (given : IsDigits digits) : IsExponent (mark :: sign :: digits)

/-- A number without its sign, as it is written. -/
inductive IsMagnitude : Text → Prop where
  | parts {whole fraction exponent : Text} (isWhole : IsWhole whole)
      (isFraction : IsFraction fraction) (isExponent : IsExponent exponent) :
      IsMagnitude (whole ++ fraction ++ exponent)

/-- A number as it is written. -/
inductive IsNumber : Text → Prop where
  | positive {magnitude : Text} (given : IsMagnitude magnitude) : IsNumber magnitude
  | negative {magnitude : Text} (given : IsMagnitude magnitude) :
      IsNumber ('-' :: magnitude)

/-- A text that means nothing between the parts of a JSON text. -/
def Gap (text : Text) : Prop :=
  ∀ character ∈ text, isGap character

/-- What the parts of a JSON text stand for. -/
inductive Part where
  /-- A value by itself. -/
  | value (value : Json)
  /-- A value with gaps round it. -/
  | padded (value : Json)
  /-- The items of an array that has some. -/
  | items (first : Json) (others : List Json)
  /-- A member of an object. -/
  | member (member : Text × Json)
  /-- The members of an object that has some. -/
  | members (first : Text × Json) (others : List (Text × Json))

/-- Which part of a JSON text stands for what. -/
inductive Spelling : Text → Part → Prop where
  | null : Spelling "null".toList (.value .null)
  | yes : Spelling "true".toList (.value (.boolean true))
  | no : Spelling "false".toList (.value (.boolean false))
  | number {literal : Text} (given : IsNumber literal) :
      Spelling literal (.value (.number literal))
  | string {inside value : Text} (inner : SpellsString inside value) :
      Spelling ('"' :: inside ++ ['"']) (.value (.string value))
  | emptyArray {inside : Text} (gap : Gap inside) :
      Spelling ('[' :: inside ++ [']']) (.value (.array []))
  | array {inside : Text} {first : Json} {others : List Json}
      (inner : Spelling inside (.items first others)) :
      Spelling ('[' :: inside ++ [']']) (.value (.array (first :: others)))
  | emptyObject {inside : Text} (gap : Gap inside) :
      Spelling ('\x7b' :: inside ++ ['\x7d']) (.value (.object []))
  | object {inside : Text} {first : Text × Json} {others : List (Text × Json)}
      (inner : Spelling inside (.members first others)) :
      Spelling ('\x7b' :: inside ++ ['\x7d']) (.value (.object (first :: others)))
  | padded {before text behind : Text} {value : Json} (start : Gap before)
      (inner : Spelling text (.value value)) (finish : Gap behind) :
      Spelling (before ++ text ++ behind) (.padded value)
  | lastItem {text : Text} {item : Json} (last : Spelling text (.padded item)) :
      Spelling text (.items item [])
  | furtherItem {text further : Text} {item next : Json} {others : List Json}
      (start : Spelling text (.padded item)) (behind : Spelling further (.items next others)) :
      Spelling (text ++ ',' :: further) (.items item (next :: others))
  | member {before inside behind text name : Text} {value : Json} (start : Gap before)
      (named : SpellsString inside name) (finish : Gap behind)
      (inner : Spelling text (.padded value)) :
      Spelling (before ++ '"' :: inside ++ '"' :: behind ++ ':' :: text) (.member (name, value))
  | lastMember {text : Text} {member : Text × Json} (last : Spelling text (.member member)) :
      Spelling text (.members member [])
  | furtherMember {text further : Text} {member next : Text × Json}
      {others : List (Text × Json)} (start : Spelling text (.member member))
      (behind : Spelling further (.members next others)) :
      Spelling (text ++ ',' :: further) (.members member (next :: others))

/-- A JSON text stands for a value, which may have gaps round it. -/
def Spells (text : Text) (value : Json) : Prop :=
  Spelling text (.padded value)

/-- There need be nothing between the parts. -/
theorem gap_nil : Gap [] :=
  List.forall_mem_nil _

/-- A value without gaps round it may stand where they are allowed. -/
theorem Spelling.spells {text : Text} {value : Json} (spelled : Spelling text (.value value)) :
    Spells text value := by
  have padded : Spells ([] ++ text ++ []) value := .padded gap_nil spelled gap_nil
  rwa [List.nil_append, List.append_nil] at padded

/-- What is left of an object without its first member can be spelled. -/
theorem exists_spells_of_cons {text : Text} {member : Text × Json}
    {members : List (Text × Json)} (spelled : Spells text (.object (member :: members))) :
    ∃ rest, Spells rest (.object members) := by
  cases spelled with
  | padded _ inner _ =>
    cases inner with
    | object inner =>
      cases inner with
      | lastMember => exact ⟨_, (Spelling.emptyObject gap_nil).spells⟩
      | furtherMember _ behind => exact ⟨_, (Spelling.object behind).spells⟩

end Json

end PathSieve
