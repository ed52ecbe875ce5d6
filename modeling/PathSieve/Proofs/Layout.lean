import Mathlib.Data.List.Basic
import PathSieve.Proofs.Splitting

/-!
# Lists as they are laid out

Whoever writes a list of phrases may put blanks and semicolons wherever there are any, as long as
each phrase is parted from the next by a semicolon or a line break. A `Phrase.Layout` is a list
written in this way. `split_exact` says that splitting is the reading of layouts: it gives the
phrases of any layout, and every text whatever is a layout of the phrases that it gives.

That every text is laid out is shown from its end to its beginning. A character that can stand
in a phrase begins a new one if a delimiter comes before the next phrase, and otherwise goes on
with that one, to which all that is between then belongs.
-/

namespace PathSieve.Phrase

/-- What may stand round the phrases of a list: blanks, line breaks among them, and semicolons. -/
def isFiller (character : Char) : Bool :=
  Text.isBlank character || character == ';'

/-- A text can be held in a list if it is not empty, trimming leaves it alone and it has neither
    semicolons nor line breaks in it. -/
theorem listable_iff {phrase : Text} :
    Listable phrase ↔ phrase ≠ [] ∧ Text.trim phrase = phrase ∧ ';' ∉ phrase ∧ '\n' ∉ phrase := by
  rw [← forall_not_isDelimiter_iff]
  constructor
  · intro listable
    exact ⟨listable.nonempty, Text.trim_of_ends listable.start listable.finish,
      listable.undelimited⟩
  · rintro ⟨nonempty, trimmed, undelimited⟩
    exact listable_of_trim nonempty trimmed undelimited

variable {character : Char} {filler : Text}

/-- What may stand round phrases is blank or a delimiter. -/
theorem isFiller_iff :
    isFiller character ↔ Text.isBlank character ∨ isDelimiter character := by
  have lineBreak : character = '\n' → Text.isBlank character := by
    rintro rfl
    rfl
  simp only [isFiller, isDelimiter, Bool.or_eq_true, beq_iff_eq]
  tauto

/-- What stands in front of a list and is neither has no part in its phrases. -/
theorem split_filler_append (fills : ∀ character ∈ filler, isFiller character) (text : Text) :
    split (filler ++ text) = split text := by
  induction filler with
  | nil => rfl
  | cons first rest inductionHypothesis =>
    obtain ⟨firstFills, restFill⟩ := List.forall_mem_cons.mp fills
    rw [← inductionHypothesis restFill]
    rcases isFiller_iff.mp firstFills with blank | parts
    · exact split_blank_cons _ blank
    · exact split_append_delimiter [] _ parts

/-- Neither has what stands behind it. -/
theorem split_append_filler (text : Text) (fills : ∀ character ∈ filler, isFiller character) :
    split (text ++ filler) = split text := by
  induction filler generalizing text with
  | nil => rw [List.append_nil]
  | cons first rest inductionHypothesis =>
    obtain ⟨firstFills, restFill⟩ := List.forall_mem_cons.mp fills
    rw [List.append_cons, inductionHypothesis (text ++ [first]) restFill]
    rcases isFiller_iff.mp firstFills with blank | parts
    · exact split_append_blank text blank
    · rw [split_append_delimiter text [] parts]
      exact List.append_nil _

/-- What stands between two lists parts them if there is a delimiter in it. -/
theorem split_append_parted (first second : Text)
    (fills : ∀ character ∈ filler, isFiller character)
    (parted : ∃ delimiter ∈ filler, isDelimiter delimiter) :
    split (first ++ filler ++ second) = split first ++ split second := by
  obtain ⟨delimiter, member, parts⟩ := parted
  obtain ⟨start, finish, rfl⟩ := List.append_of_mem member
  obtain ⟨startFills, restFill⟩ := List.forall_mem_append.mp fills
  obtain ⟨_, finishFills⟩ := List.forall_mem_cons.mp restFill
  calc split (first ++ (start ++ delimiter :: finish) ++ second)
      = split ((first ++ start) ++ delimiter :: (finish ++ second)) := by
        simp only [List.append_assoc, List.cons_append]
    _ = split (first ++ start) ++ split (finish ++ second) :=
        split_append_delimiter _ _ parts
    _ = split first ++ split second := by
        rw [split_append_filler first startFills, split_filler_append finishFills]

/-- A list as it is laid out. -/
structure Layout where
  /-- What stands in front of the first phrase. -/
  before : Text
  /-- The phrases in order, each with what stands behind it. -/
  entries : List (Text × Text)
  fills_before : ∀ character ∈ before, isFiller character
  listable : ∀ entry ∈ entries, Listable entry.1
  fills_behind : ∀ entry ∈ entries, ∀ character ∈ entry.2, isFiller character
  parted : ∀ entry ∈ entries.dropLast, ∃ delimiter ∈ entry.2, isDelimiter delimiter

namespace Layout

/-- The phrases of a layout. -/
def phrases (layout : Layout) : List Text :=
  layout.entries.map Prod.fst

/-- The text of a layout. -/
def text (layout : Layout) : Text :=
  layout.before ++ layout.entries.flatMap fun (phrase, behind) => phrase ++ behind

/-- Phrases that are parted from each other by delimiters are the phrases of what they make up. -/
theorem split_entries {entries : List (Text × Text)}
    (listable : ∀ entry ∈ entries, Listable entry.1)
    (fills : ∀ entry ∈ entries, ∀ character ∈ entry.2, isFiller character)
    (parted : ∀ entry ∈ entries.dropLast, ∃ delimiter ∈ entry.2, isDelimiter delimiter) :
    split (entries.flatMap fun (phrase, behind) => phrase ++ behind) = entries.map Prod.fst := by
  induction entries with
  | nil => rfl
  | cons entry rest inductionHypothesis =>
    obtain ⟨firstListable, restListable⟩ := List.forall_mem_cons.mp listable
    obtain ⟨firstFills, restFill⟩ := List.forall_mem_cons.mp fills
    cases rest with
    | nil =>
      rw [List.flatMap_singleton, split_append_filler _ firstFills, split_of_listable firstListable]
      rfl
    | cons next others =>
      rw [List.dropLast_cons_cons] at parted
      obtain ⟨firstParted, restParted⟩ := List.forall_mem_cons.mp parted
      rw [List.flatMap_cons, split_append_parted _ _ firstFills firstParted,
        split_of_listable firstListable, inductionHypothesis restListable restFill restParted]
      rfl

/-- Splitting the text of a layout gives its phrases. -/
theorem split_text (layout : Layout) : split layout.text = layout.phrases := by
  rw [text, split_filler_append layout.fills_before]
  exact split_entries layout.listable layout.fills_behind layout.parted

/-- The characters of a layout that cannot stand round phrases are those of its phrases, in
    order. -/
theorem filter_text (layout : Layout) :
    layout.text.filter (!isFiller ·) = layout.phrases.flatten.filter (!isFiller ·) := by
  have dropped {filler : Text} (fills : ∀ character ∈ filler, isFiller character) :
      filler.filter (!isFiller ·) = [] := by
    simpa using fills
  have kept : ∀ entry ∈ layout.entries,
      (entry.1 ++ entry.2).filter (!isFiller ·) = entry.1.filter (!isFiller ·) := by
    intro entry member
    rw [List.filter_append, dropped (layout.fills_behind entry member), List.append_nil]
  calc layout.text.filter (!isFiller ·)
      = layout.entries.flatMap fun entry => (entry.1 ++ entry.2).filter (!isFiller ·) := by
        rw [text, List.filter_append, dropped layout.fills_before, List.nil_append,
          List.filter_flatMap]
    _ = layout.entries.flatMap fun entry => entry.1.filter (!isFiller ·) :=
        List.flatMap_congr kept
    _ = layout.phrases.flatten.filter (!isFiller ·) := by
        rw [phrases, ← List.flatMap_def, List.filter_flatMap]

/-- What stands in front of a layout makes another one of it. -/
theorem exists_filler_cons (layout : Layout) {character : Char} (fills : isFiller character) :
    ∃ longer : Layout, longer.text = character :: layout.text :=
  ⟨{ layout with
      before := character :: layout.before
      fills_before := List.forall_mem_cons.mpr ⟨fills, layout.fills_before⟩ }, rfl⟩

/-- A character of a phrase begins one if there is a delimiter before the next phrase or no next
    phrase at all. -/
theorem exists_first_cons (layout : Layout) {character : Char} (shown : ¬ isFiller character)
    (apart : layout.entries ≠ [] → ∃ delimiter ∈ layout.before, isDelimiter delimiter) :
    ∃ longer : Layout, longer.text = character :: layout.text := by
  rw [isFiller_iff, not_or, Bool.not_eq_true, Bool.not_eq_true] at shown
  have listable : Listable [character] :=
    listable_cons shown.1 shown.2 (fun _ ends => absurd ends (by simp)) (List.forall_mem_nil _)
  have parted : ∀ entry ∈ (([character], layout.before) :: layout.entries).dropLast,
      ∃ delimiter ∈ entry.2, isDelimiter delimiter := by
    by_cases last : layout.entries = []
    · rw [last]
      exact List.forall_mem_nil _
    · rw [List.dropLast_cons_of_ne_nil last]
      exact List.forall_mem_cons.mpr ⟨apart last, layout.parted⟩
  exact ⟨{
    before := []
    entries := ([character], layout.before) :: layout.entries
    fills_before := List.forall_mem_nil _
    listable := List.forall_mem_cons.mpr ⟨listable, layout.listable⟩
    fills_behind := List.forall_mem_cons.mpr ⟨layout.fills_before, layout.fills_behind⟩
    parted := parted }, by simp [text]⟩

/-- Without a delimiter it is part of the next phrase, and so is all that is between. -/
theorem exists_further_cons (layout : Layout) {character : Char} (shown : ¬ isFiller character)
    (followed : layout.entries ≠ [])
    (joined : ∀ other ∈ layout.before, isDelimiter other = false) :
    ∃ longer : Layout, longer.text = character :: layout.text := by
  rw [isFiller_iff, not_or, Bool.not_eq_true, Bool.not_eq_true] at shown
  obtain ⟨before, entries, _, listable, fills, parted⟩ := layout
  cases entries with
  | nil => exact absurd rfl followed
  | cons entry others =>
    obtain ⟨phrase, behind⟩ := entry
    obtain ⟨nextListable, othersListable⟩ := List.forall_mem_cons.mp listable
    have whole : Listable (character :: (before ++ phrase)) := by
      refine listable_cons shown.1 shown.2 ?_ ?_
      · rw [List.getLast?_append_of_ne_nil _ nextListable.nonempty]
        exact nextListable.finish
      · exact List.forall_mem_append.mpr ⟨joined, nextListable.undelimited⟩
    have stillParted : ∀ entry ∈ ((character :: (before ++ phrase), behind) :: others).dropLast,
        ∃ delimiter ∈ entry.2, isDelimiter delimiter := by
      cases others with
      | nil => exact List.forall_mem_nil _
      | cons next others =>
        rw [List.dropLast_cons_cons, List.forall_mem_cons] at parted ⊢
        exact parted
    exact ⟨{
      before := []
      entries := (character :: (before ++ phrase), behind) :: others
      fills_before := List.forall_mem_nil _
      listable := List.forall_mem_cons.mpr ⟨whole, othersListable⟩
      fills_behind := List.forall_mem_cons.mpr (List.forall_mem_cons.mp fills)
      parted := stillParted }, by simp [text]⟩

/-- Every text is the text of a layout. -/
theorem exists_text_eq (text : Text) : ∃ layout : Layout, layout.text = text := by
  induction text with
  | nil =>
    exact ⟨⟨[], [], List.forall_mem_nil _, List.forall_mem_nil _, List.forall_mem_nil _,
      List.forall_mem_nil _⟩, rfl⟩
  | cons first rest inductionHypothesis =>
    obtain ⟨layout, rfl⟩ := inductionHypothesis
    by_cases fills : isFiller first
    · exact layout.exists_filler_cons fills
    by_cases joined : layout.entries ≠ [] ∧ ∀ other ∈ layout.before, isDelimiter other = false
    · exact layout.exists_further_cons fills joined.1 joined.2
    · apply layout.exists_first_cons fills
      intro followed
      simpa using not_and.mp joined followed

end Layout

/-- Splitting reads lists as they are laid out, and nothing but such. What a list can hold as a
    phrase is a text that is not empty, that trimming leaves alone and that has no semicolon and no
    line break in it. Where such phrases are written in order, parted from each other by blanks and
    semicolons with a semicolon or a line break among them, and with any of these in front and
    behind, splitting gives exactly these phrases. And every text is written in this way: what
    splitting gives are such phrases, they stand in the text in order with nothing else between
    them, and so they have together, each once, all its characters but blanks and semicolons. -/
theorem split_exact :
    (∀ phrase, Listable phrase ↔
      phrase ≠ [] ∧ Text.trim phrase = phrase ∧ ';' ∉ phrase ∧ '\n' ∉ phrase) ∧
    (∀ layout : Layout, split layout.text = layout.phrases) ∧
    ∀ text,
      (∀ phrase ∈ split text, Listable phrase) ∧
        (∃ layout : Layout, layout.text = text ∧ layout.phrases = split text) ∧
        (split text).flatten.filter (!isFiller ·) = text.filter (!isFiller ·) := by
  refine ⟨fun _ => listable_iff, Layout.split_text, ?_⟩
  intro text
  obtain ⟨layout, rfl⟩ := Layout.exists_text_eq text
  refine ⟨fun _ => listable_of_mem_split, ⟨layout, rfl, layout.split_text.symm⟩, ?_⟩
  rw [layout.split_text, layout.filter_text]

/-- A list with line breaks of two characters, a wide space in front and semicolons round an empty
    phrase. The blank within a phrase stays, and nothing else is lost or joined. -/
theorem split_exact_of_carriage_returns :
    let text := "\u3000;*.bak\r\nMy Files/ ; ;\r\n\tcache\u00a0".toList
    "My Files/".toList ∈ split text ∧ Listable "My Files/".toList ∧
      split text = ["*.bak".toList, "My Files/".toList, "cache".toList] ∧
      text.filter (!isFiller ·) = "*.bakMyFiles/cache".toList := by
  intro text
  have given : split text = ["*.bak".toList, "My Files/".toList, "cache".toList] := by
    decide +kernel
  have member : "My Files/".toList ∈ split text := by
    rw [given]
    exact List.mem_cons_of_mem _ List.mem_cons_self
  obtain ⟨_, _, reads⟩ := split_exact
  obtain ⟨listable, _, kept⟩ := reads text
  refine ⟨member, listable _ member, given, ?_⟩
  rw [← kept, given]
  decide +kernel

end PathSieve.Phrase
