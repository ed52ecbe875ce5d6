import PathSieve.Json.Grammar

/-!
# Writing JSON

The compact text of an object whose members are strings: no gaps between its parts, and in
strings only the quote, the backslash and the controls below the space are written as
escapes.

Each character is written as something that spells it (`spellsCharacter_escape`), which
`spells_objectText` carries from the strings to the members and to the object.
-/

namespace PathSieve.Json

/-- A character as it stands in a JSON string. The controls without a letter of their own
    are written by four hexadecimal digits, of which only the last two can be other
    than zero. -/
def escape : Char → Text
  | '"' => ['\\', '"']
  | '\\' => ['\\', '\\']
  | '\x08' => ['\\', 'b']
  | '\x0c' => ['\\', 'f']
  | '\n' => ['\\', 'n']
  | '\x0d' => ['\\', 'r']
  | '\t' => ['\\', 't']
  | character =>
    if character.toNat < 0x20 then
      ['\\', 'u', '0', '0', Nat.digitChar (character.toNat / 16),
        Nat.digitChar (character.toNat % 16)]
    else [character]

/-- A text as a JSON string. -/
def stringText (value : Text) : Text :=
  '"' :: value.flatMap escape ++ ['"']

/-- A member of an object. -/
def memberText (member : Text × Text) : Text :=
  stringText member.1 ++ ':' :: stringText member.2

/-- The members of an object that has some, with commas between them. -/
def membersText : Text × Text → List (Text × Text) → Text
  | first, [] => memberText first
  | first, next :: others => memberText first ++ ',' :: membersText next others

/-- An object whose members are strings. -/
def objectText : List (Text × Text) → Text
  | [] => ['\x7b', '\x7d']
  | first :: others => '\x7b' :: membersText first others ++ ['\x7d']

/-- The four hexadecimal digits of a control character stand for its number. -/
theorem hexValue?_of_control : ∀ value < 0x20,
    hexValue? ['0', '0', Nat.digitChar (value / 16), Nat.digitChar (value % 16)] = some value := by
  decide

/-- A character is written as something that stands for it. -/
theorem spellsCharacter_escape (character : Char) :
    SpellsCharacter (escape character) character := by
  unfold escape
  split
  case h_8 notQuote notBackslash _ _ _ _ _ =>
    split
    · next control =>
      have spelled := SpellsCharacter.unit (hexValue?_of_control _ control)
        (by simp [isUpperHalf]; omega) (by simp [isLowerHalf]; omega)
      rwa [Char.ofNat_toNat] at spelled
    · next visible => exact .plain (Nat.le_of_not_lt visible) notQuote notBackslash
  -- The characters that have a letter or sign of their own.
  all_goals exact .letter rfl

/-- A text is written character by character. -/
theorem spellsString_flatMap_escape (value : Text) :
    SpellsString (value.flatMap escape) value := by
  induction value with
  | nil => exact .nil
  | cons character value inductionHypothesis =>
    exact .cons (spellsCharacter_escape character) inductionHypothesis

/-- A member whose value is a string. -/
theorem spelling_memberText (member : Text × Text) :
    Spelling (memberText member) (.member (member.1, .string member.2)) := by
  have value : Spells (stringText member.2) (.string member.2) :=
    (Spelling.string (spellsString_flatMap_escape member.2)).spells
  have named := spellsString_flatMap_escape member.1
  have spelled : Spelling ([] ++ '"' :: member.1.flatMap escape ++ '"' :: [] ++ ':' :: _) _ :=
    .member gap_nil named gap_nil value
  simpa [memberText, stringText] using spelled

/-- Members whose values are strings. -/
theorem spelling_membersText (first : Text × Text) (others : List (Text × Text)) :
    Spelling (membersText first others)
      (.members (first.1, .string first.2) (others.map (Prod.map id string))) := by
  induction others generalizing first with
  | nil => exact .lastMember (spelling_memberText first)
  | cons next others inductionHypothesis =>
    exact .furtherMember (spelling_memberText first) (inductionHypothesis next)

/-- An object whose members are strings is written as a text that stands for it. -/
theorem spells_objectText (members : List (Text × Text)) :
    Spells (objectText members) (.object (members.map (Prod.map id string))) := by
  cases members with
  | nil => exact (Spelling.emptyObject gap_nil).spells
  | cons first others => exact (Spelling.object (spelling_membersText first others)).spells

end PathSieve.Json
