import PathSieve.Mask
import PathSieve.Platform
import PathSieve.Scope
import PathSieve.Text.Blank

/-!
# Phrases

A phrase is what a user writes to name files and folders. Phrases are written in
a list, with semicolons or line breaks between them. A phrase that begins with the
separator is anchored at the root; one that ends with the separator, or with the
separator and a `*`, names folders only; one that begins with `*` and the
separator is meant at any depth, the root included. `Phrase.compile` turns a
phrase into the masks that say so, sorted by scope.

A list is cut at its semicolons first and what is between them at the line breaks, which
comes to cutting it at both (`split_eq_splitOnP`). So `split_append_delimiter` says that a
list can be cut at any delimiter, and `compileAll_append_delimiter` that its masks then
come from the two parts in turn.
-/

namespace PathSieve.Phrase

/-- The phrases of a list, in order and trimmed, without the empty ones. -/
def split (text : Text) : List Text :=
  (((text.splitOn ';').flatMap (·.splitOn '\n')).map Text.trim).filter
    fun phrase => !phrase.isEmpty

/-- Whether a character ends one phrase and begins the next. -/
def isDelimiter (character : Char) : Bool :=
  character == ';' || character == '\n'

/-- To cut a text at the semicolons, and its pieces at the line breaks, is to cut it at both. -/
theorem flatMap_splitOn (text : Text) :
    (text.splitOn ';').flatMap (·.splitOn '\n') = text.splitOnP isDelimiter := by
  induction text with
  | nil => rfl
  | cons character rest inductionHypothesis =>
    obtain ⟨piece, pieces, cut⟩ := List.exists_cons_of_ne_nil
      (List.splitOnP_ne_nil (· == ';') rest)
    obtain ⟨line, lines, broken⟩ := List.exists_cons_of_ne_nil
      (List.splitOnP_ne_nil (· == '\n') piece)
    simp only [List.splitOn, cut, List.flatMap_cons, broken] at inductionHypothesis
    simp only [List.splitOn, List.splitOnP_cons_eq_if_modifyHead, ← inductionHypothesis, cut]
    by_cases ends : character = ';'
    · simp [ends, isDelimiter, broken]
    by_cases breaks : character = '\n'
    · simp [breaks, isDelimiter, List.splitOnP_cons_eq_if_modifyHead, broken]
    · simp [ends, breaks, isDelimiter, List.splitOnP_cons_eq_if_modifyHead, broken]

/-- The phrases of a list are what stands between its delimiters. -/
theorem split_eq_splitOnP (text : Text) :
    split text = ((text.splitOnP isDelimiter).map Text.trim).filter
      fun phrase => !phrase.isEmpty := by
  rw [split, flatMap_splitOn]

/-- A delimiter parts a list: the phrases are those before it and those after it. -/
theorem split_append_delimiter {delimiter : Char} (before after : Text)
    (parts : isDelimiter delimiter) :
    split (before ++ delimiter :: after) = split before ++ split after := by
  simp [split_eq_splitOnP, List.splitOnP_append_cons before after parts]

/-- The name before a folder mark, which is a separator at the end or a separator and a
    `*` at the end. -/
def beforeFolderMark? (separator : Char) (phrase : Text) : Option Text :=
  (Text.before? [separator] phrase).or (Text.before? [separator, '*'] phrase)

/-- A mask stands for itself unless it is empty: an empty mask says nothing. -/
def unlessEmpty (mask : Mask) : List Mask :=
  if mask.isEmpty then [] else [mask]

/-- The mask of an anchored phrase, of folder scope if the phrase bears a folder mark. -/
def place (separator : Char) (phrase : Text) : Scoped (List Mask) :=
  match beforeFolderMark? separator phrase with
  | some folder => ⟨[], unlessEmpty folder⟩
  | none => ⟨unlessEmpty phrase, []⟩

/-- The anchored phrases that a phrase in normal spelling stands for: what follows a
    leading separator; otherwise the phrase itself and also what follows a leading `*`
    and separator, so that these reach the root too. -/
def anchorings (separator : Char) (phrase : Text) : List Text :=
  match Text.after? [separator] phrase with
  | some anchored => [anchored]
  | none => phrase :: (Text.after? ['*', separator] phrase).toList

/-- The masks of one phrase under the conventions of a platform. -/
def compile (platform : Platform) (phrase : Text) : Scoped (List Mask) :=
  Scoped.flatMap (place platform.separator)
    (anchorings platform.separator (platform.normalize phrase))

/-- The masks of all phrases of a list. -/
def compileAll (platform : Platform) (text : Text) : Scoped (List Mask) :=
  Scoped.flatMap (compile platform) (split text)

/-- The masks of a list come from the parts before and after any delimiter in turn. -/
theorem compileAll_append_delimiter {delimiter : Char} (platform : Platform)
    (before after : Text) (parts : isDelimiter delimiter) :
    compileAll platform (before ++ delimiter :: after) =
      ⟨(compileAll platform before).entry ++ (compileAll platform after).entry,
        (compileAll platform before).folder ++ (compileAll platform after).folder⟩ := by
  simp [compileAll, Scoped.flatMap, split_append_delimiter before after parts]

end PathSieve.Phrase
