import PathSieve.Text.Uppercase

/-!
# Platforms

A platform fixes how paths are spelled: which character separates folders,
which second character is read as that separator, and whether case matters.
Phrases and paths are brought into one spelling by `Platform.normalize` before
they are compared; `Platform.spell` does so without making a new text where none is
needed.

The module also fixes the order of platforms, by separator, then by second
separator with none first, then by case folding, and shows that it is a total
order under which only equal platforms tie.
-/

namespace PathSieve

/-- The conventions for spelling a path. -/
inductive Platform where
  /-- `/` separates and case matters. -/
  | posix
  /-- `/` separates and case does not matter. -/
  | macos
  /-- `\` separates, `/` is read as `\`, and case does not matter. -/
  | windows
deriving DecidableEq, Repr, Inhabited

namespace Platform

/-- The platform used where none is named. -/
def standard : Platform := posix

/-- The character that separates a folder from its entries. -/
def separator : Platform → Char
  | posix => '/'
  | macos => '/'
  | windows => '\\'

/-- A second character that is read as the separator. -/
def alternate? : Platform → Option Char
  | posix => none
  | macos => none
  | windows => some '/'

/-- Whether upper and lower case are the same. -/
def foldsCase : Platform → Bool
  | posix => false
  | macos => true
  | windows => true

/-- The one spelling of a character: the separator for the second separator, upper case
    where case does not matter. -/
def normalizeChar (platform : Platform) (character : Char) : Char :=
  if platform.alternate? = some character then platform.separator
  else if platform.foldsCase then Text.capital character
  else character

/-- The one spelling of a text, character by character. -/
def normalize (platform : Platform) (text : Text) : Text :=
  text.map platform.normalizeChar

/-- Whether a text is already spelled the one way, so that no character changes. -/
def isNormal (platform : Platform) (text : Text) : Bool :=
  text.all fun character => platform.normalizeChar character == character

/-- What is handed back for a text that is brought into the one spelling. -/
inductive Spelled where
  /-- The text that was given: it is spelled that way already. -/
  | asGiven (text : Text)
  /-- A new text. -/
  | anew (text : Text)
deriving DecidableEq, Repr

/-- The text that is handed back. -/
def Spelled.text : Spelled → Text
  | asGiven text => text
  | anew text => text

/-- Whether the text that was given is handed back. -/
def Spelled.isAsGiven : Spelled → Bool
  | asGiven _ => true
  | anew _ => false

/-- Bring a text into the one spelling. A new text is made only if some character changes. -/
def spell (platform : Platform) (text : Text) : Spelled :=
  if platform.isNormal text then .asGiven text else .anew (platform.normalize text)

/-- Normalizing works on each character by itself. -/
@[simp] theorem normalize_append (platform : Platform) (first second : Text) :
    platform.normalize (first ++ second) =
      platform.normalize first ++ platform.normalize second :=
  List.map_append

/-- Normalizing keeps the number of characters. -/
@[simp] theorem length_normalize (platform : Platform) (text : Text) :
    (platform.normalize text).length = text.length :=
  List.length_map _

/-- A text is spelled the one way exactly when normalizing leaves it alone. -/
theorem isNormal_iff {platform : Platform} {text : Text} :
    platform.isNormal text ↔ platform.normalize text = text := by
  induction text with
  | nil => simp [isNormal, normalize]
  | cons first rest inductionHypothesis =>
    simp only [isNormal, normalize] at inductionHypothesis
    simp [isNormal, normalize, inductionHypothesis]

/-- Either way the text that is handed back is the one in normal spelling. -/
@[simp] theorem text_spell (platform : Platform) (text : Text) :
    (platform.spell text).text = platform.normalize text := by
  rw [spell]
  split
  · next normal => exact (isNormal_iff.mp normal).symm
  · rfl

/-- Platforms are ordered by separator, then second separator, then case folding. -/
instance : Ord Platform where
  compare := compareLex (compareOn separator)
    (compareLex (compareOn alternate?) (compareOn foldsCase))

instance : Std.TransOrd Platform :=
  inferInstanceAs (Std.TransCmp (compareLex (compareOn separator)
    (compareLex (compareOn alternate?) (compareOn foldsCase))))

/-- Only equal platforms tie. -/
instance : Std.LawfulEqOrd Platform where
  compare_self := Std.ReflCmp.compare_self
  eq_of_compare := by
    intro first second tie
    cases first <;> cases second <;> first | rfl | exact absurd tie (by decide)

end Platform

end PathSieve
