import Mathlib.Data.List.Induction
import PathSieve.Phrase

/-!
# Lists and the phrases in them

Splitting a list takes the delimiters out, trims what is between them and drops what is then
empty. This module says which texts can be phrases of a list at all: those that are not empty,
neither begin nor end with a blank, and have no delimiter in them. `listable_of_mem_split` says
that splitting gives no others, `split_of_listable` that such a text is a list of itself, and
`split_intercalate` that joined phrases come apart again as they were. Blanks around a list
matter as little as blanks around its phrases: `split_trim`.
-/

namespace PathSieve

namespace Text

variable {text : Text} {character : Char}

/-- Trimming the end takes nothing off the start. -/
theorem trim_begins (text : Text) : trim text <+: trimStart text := by
  rw [trim, trimEnd, ← List.reverse_suffix, List.reverse_reverse]
  exact List.dropWhile_suffix isBlank

/-- Trimming takes something off the ends and keeps what is between. -/
theorem trim_within (text : Text) : trim text <:+: text := by
  have start : trimStart text <:+ text := List.dropWhile_suffix isBlank
  exact (trim_begins text).isInfix.trans start.isInfix

/-- What is trimmed at its start does not begin with a blank. -/
theorem not_isBlank_of_head?_trimStart (first : (trimStart text).head? = some character) :
    isBlank character = false := by
  have stopped := List.head?_dropWhile_not isBlank text
  rw [trimStart] at first
  rwa [first] at stopped

/-- A trimmed text does not end with a blank. -/
theorem not_isBlank_of_getLast?_trim (last : (trim text).getLast? = some character) :
    isBlank character = false := by
  rw [trim, trimEnd, List.getLast?_reverse] at last
  exact not_isBlank_of_head?_trimStart last

/-- A trimmed text does not begin with a blank: if there is something left of it, it begins as
    before its end was trimmed. -/
theorem not_isBlank_of_head?_trim (first : (trim text).head? = some character) :
    isBlank character = false := by
  obtain ⟨rest, whole⟩ := trim_begins text
  have begins : (trimStart text).head? = some character := by
    rw [← whole, List.head?_append, first]
    rfl
  exact not_isBlank_of_head?_trimStart begins

/-- Trimming a start does not see a blank in front of it. -/
theorem trimStart_blank_cons (text : Text) (blank : isBlank character) :
    trimStart (character :: text) = trimStart text :=
  List.dropWhile_cons_of_pos blank

/-- Trimming an end does not see a blank behind it. -/
theorem trimEnd_append_blank (text : Text) (blank : isBlank character) :
    trimEnd (text ++ [character]) = trimEnd text := by
  rw [trimEnd, trimEnd, List.reverse_append, List.reverse_singleton, List.singleton_append,
    trimStart_blank_cons _ blank]

/-- Trimming does not see a blank behind a text. -/
theorem trim_append_blank (text : Text) (blank : isBlank character) :
    trim (text ++ [character]) = trim text := by
  by_cases empty : trimStart text = []
  -- Where the text has blanks only, the one behind them is taken off from the start.
  · have allTaken : trimStart (text ++ [character]) = [] := by
      simpa [trimStart, List.dropWhile_append, blank] using empty
    rw [trim, trim, allTaken, empty]
  · have kept : trimStart (text ++ [character]) = trimStart text ++ [character] := by
      simp only [trimStart] at empty
      simp [trimStart, List.dropWhile_append, empty]
    rw [trim, trim, kept, trimEnd_append_blank _ blank]

end Text

namespace Phrase

/-- A text that a list can hold as one of its phrases. -/
structure Listable (phrase : Text) : Prop where
  nonempty : phrase ≠ []
  start : ∀ character ∈ phrase.head?, Text.isBlank character = false
  finish : ∀ character ∈ phrase.getLast?, Text.isBlank character = false
  undelimited : ∀ character ∈ phrase, isDelimiter character = false

/-- A text has no delimiter in it when it has neither a semicolon nor a line break. -/
theorem forall_not_isDelimiter_iff {text : Text} :
    (∀ character ∈ text, isDelimiter character = false) ↔ ';' ∉ text ∧ '\n' ∉ text := by
  constructor
  · intro free
    exact ⟨fun member => absurd (free ';' member) (by decide),
      fun member => absurd (free '\n' member) (by decide)⟩
  · rintro ⟨noSemicolon, noLineBreak⟩ character member
    rw [isDelimiter, Bool.or_eq_false_iff, beq_eq_false_iff_ne, beq_eq_false_iff_ne]
    exact ⟨fun same => noSemicolon (same ▸ member), fun same => noLineBreak (same ▸ member)⟩

/-- A character that is neither a blank nor a delimiter can stand in front of a text. -/
theorem listable_cons {first : Char} {rest : Text} (shown : Text.isBlank first = false)
    (undelimiting : isDelimiter first = false)
    (finish : ∀ character ∈ rest.getLast?, Text.isBlank character = false)
    (undelimited : ∀ character ∈ rest, isDelimiter character = false) :
    Listable (first :: rest) where
  nonempty := List.cons_ne_nil first rest
  start := by
    intro character begins
    exact Option.some.inj begins ▸ shown
  finish := by
    intro character ends
    cases rest with
    | nil => exact Option.some.inj ends ▸ shown
    | cons second rest =>
      rw [List.getLast?_cons_cons] at ends
      exact finish character ends
  undelimited := List.forall_mem_cons.mpr ⟨undelimiting, undelimited⟩

/-- What stands between two delimiters of a text is part of the text and has no delimiter in it. -/
theorem of_mem_splitOnP {text piece : Text} {character : Char}
    (found : piece ∈ text.splitOnP isDelimiter) (member : character ∈ piece) :
    character ∈ text ∧ isDelimiter character = false := by
  induction text generalizing piece with
  | nil =>
    rw [List.splitOnP_nil, List.mem_singleton] at found
    subst found
    exact absurd member List.not_mem_nil
  | cons first rest inductionHypothesis =>
    have later {other : Text} (behind : other ∈ rest.splitOnP isDelimiter)
        (within : character ∈ other) :
        character ∈ first :: rest ∧ isDelimiter character = false :=
      (inductionHypothesis behind within).imp_left (List.mem_cons_of_mem first)
    rw [List.splitOnP_cons_eq_if_modifyHead] at found
    split at found
    · rcases List.mem_cons.mp found with rfl | behind
      · exact absurd member List.not_mem_nil
      · exact later behind member
    · next kept =>
      cases pieces : rest.splitOnP isDelimiter with
      | nil => exact absurd pieces (List.splitOnP_ne_nil _ _)
      | cons head others =>
        rw [pieces, List.modifyHead_cons] at found
        rcases List.mem_cons.mp found with rfl | behind
        · rcases List.mem_cons.mp member with rfl | within
          · exact ⟨List.mem_cons_self, Bool.eq_false_iff.mpr kept⟩
          · exact later (pieces ▸ List.mem_cons_self) within
        · exact later (pieces ▸ List.mem_cons_of_mem head behind) member

/-- A phrase of a list has no characters but those of the list. -/
theorem subset_of_mem_split {text phrase : Text} (member : phrase ∈ split text) :
    phrase ⊆ text := by
  rw [split_eq_splitOnP] at member
  obtain ⟨trimmed, _⟩ := List.mem_filter.mp member
  obtain ⟨piece, pieceMember, rfl⟩ := List.mem_map.mp trimmed
  intro character within
  exact (of_mem_splitOnP pieceMember ((Text.trim_within piece).subset within)).1

/-- The phrases of a list are texts that a list can hold. -/
theorem listable_of_mem_split {text phrase : Text} (member : phrase ∈ split text) :
    Listable phrase := by
  rw [split_eq_splitOnP] at member
  obtain ⟨trimmed, kept⟩ := List.mem_filter.mp member
  obtain ⟨piece, pieceMember, rfl⟩ := List.mem_map.mp trimmed
  exact {
    nonempty := by simpa using kept
    start := fun _ first => Text.not_isBlank_of_head?_trim first
    finish := fun _ last => Text.not_isBlank_of_getLast?_trim last
    undelimited := fun _ within =>
      (of_mem_splitOnP pieceMember ((Text.trim_within piece).subset within)).2 }

/-- A text that trimming leaves alone can be held in a list if there is something in it and no
    delimiter. -/
theorem listable_of_trim {phrase : Text} (nonempty : phrase ≠ [])
    (trimmed : Text.trim phrase = phrase)
    (undelimited : ∀ character ∈ phrase, isDelimiter character = false) : Listable phrase where
  nonempty := nonempty
  start := fun _ first => Text.not_isBlank_of_head?_trim (trimmed.symm ▸ first)
  finish := fun _ last => Text.not_isBlank_of_getLast?_trim (trimmed.symm ▸ last)
  undelimited := undelimited

/-- A text that a list can hold is a list with this one phrase. -/
theorem split_of_listable {phrase : Text} (listable : Listable phrase) :
    split phrase = [phrase] := by
  have trimmed : Text.trim phrase = phrase :=
    Text.trim_of_ends listable.start listable.finish
  rw [split_eq_splitOnP, List.splitOnP_eq_singleton listable.undelimited]
  simp [trimmed, listable.nonempty]

/-- Phrases that are joined with delimiters come apart again as they were. -/
theorem split_intercalate {delimiter : Char} {phrases : List Text}
    (parts : isDelimiter delimiter) (listable : ∀ phrase ∈ phrases, Listable phrase) :
    split ([delimiter].intercalate phrases) = phrases := by
  induction phrases with
  | nil => rfl
  | cons phrase rest inductionHypothesis =>
    obtain ⟨firstListable, restListable⟩ := List.forall_mem_cons.mp listable
    cases rest with
    | nil =>
      rw [List.intercalate_singleton]
      exact split_of_listable firstListable
    | cons next others =>
      rw [List.intercalate_cons_cons, List.append_assoc, List.singleton_append,
        split_append_delimiter _ _ parts, split_of_listable firstListable,
        inductionHypothesis restListable, List.singleton_append]

/-- A list that is gone on with by others, each behind a delimiter, has the phrases of all of
    them in turn. -/
theorem split_append_joined {further : List (Char × Text)} (text : Text)
    (parts : ∀ joined ∈ further, isDelimiter joined.1) :
    split (text ++ further.flatMap fun joined => joined.1 :: joined.2) =
      split text ++ further.flatMap fun joined => split joined.2 := by
  induction further generalizing text with
  | nil => simp
  | cons joined further inductionHypothesis =>
    obtain ⟨firstParts, restParts⟩ := List.forall_mem_cons.mp parts
    rw [List.flatMap_cons, List.cons_append, split_append_delimiter _ _ firstParts,
      inductionHypothesis joined.2 restParts, List.flatMap_cons]

/-- A blank in front of a list is in none of its phrases. -/
theorem split_blank_cons {character : Char} (text : Text) (blank : Text.isBlank character) :
    split (character :: text) = split text := by
  by_cases parts : isDelimiter character
  · exact split_append_delimiter [] text parts
  · cases pieces : text.splitOnP isDelimiter with
    | nil => exact absurd pieces (List.splitOnP_ne_nil _ _)
    | cons head others =>
      -- The blank goes to the first piece, from which it is trimmed off again.
      have trimmed : Text.trim (character :: head) = Text.trim head := by
        rw [Text.trim, Text.trim, Text.trimStart_blank_cons _ blank]
      rw [split_eq_splitOnP, split_eq_splitOnP, List.splitOnP_cons_eq_if_modifyHead,
        if_neg parts, pieces, List.modifyHead_cons, List.map_cons, List.map_cons, trimmed]

/-- A blank behind a list is in none of its phrases. -/
theorem split_append_blank {character : Char} (text : Text) (blank : Text.isBlank character) :
    split (text ++ [character]) = split text := by
  by_cases delimited : ∃ delimiter ∈ text, isDelimiter delimiter
  -- Behind a delimiter the list goes on with a shorter one.
  · obtain ⟨delimiter, member, parts⟩ := delimited
    obtain ⟨before, after, rfl⟩ := List.append_of_mem member
    rw [List.append_assoc, List.cons_append, split_append_delimiter _ _ parts,
      split_append_delimiter _ _ parts, split_append_blank after blank]
  · have undelimited : ∀ other ∈ text, isDelimiter other = false := by
      simpa using delimited
    by_cases parts : isDelimiter character
    · rw [split_append_delimiter text [] parts]
      exact List.append_nil _
    · have whole : ∀ other ∈ text ++ [character], isDelimiter other = false := by
        simpa [or_imp, forall_and] using ⟨undelimited, Bool.eq_false_iff.mpr parts⟩
      rw [split_eq_splitOnP, split_eq_splitOnP, List.splitOnP_eq_singleton undelimited,
        List.splitOnP_eq_singleton whole, List.map_singleton, List.map_singleton,
        Text.trim_append_blank text blank]
termination_by text.length

/-- The phrases of a list stay the same when its start is trimmed. -/
theorem split_trimStart (text : Text) : split (Text.trimStart text) = split text := by
  induction text with
  | nil => rfl
  | cons first rest inductionHypothesis =>
    by_cases blank : Text.isBlank first
    · rw [Text.trimStart_blank_cons rest blank, inductionHypothesis, split_blank_cons rest blank]
    · rw [Text.trimStart_of_head]
      simpa using blank

/-- The phrases of a list stay the same when its end is trimmed. -/
theorem split_trimEnd (text : Text) : split (Text.trimEnd text) = split text := by
  induction text using List.reverseRecOn with
  | nil => rfl
  | append_singleton rest last inductionHypothesis =>
    by_cases blank : Text.isBlank last
    · rw [Text.trimEnd_append_blank rest blank, inductionHypothesis, split_append_blank rest blank]
    · rw [Text.trimEnd, Text.trimStart_of_head, List.reverse_reverse]
      simpa using blank

/-- A list may be trimmed as a whole before it is split. -/
theorem split_trim (text : Text) : split (Text.trim text) = split text := by
  rw [Text.trim, split_trimEnd, split_trimStart]

end Phrase

end PathSieve
