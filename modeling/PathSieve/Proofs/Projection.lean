import PathSieve.Proofs.Spelling

/-!
# Normalizing as a projection

Masks are brought into the one spelling once, when a list of phrases is compiled, and paths once,
when they are judged; after that the two are compared character by character. This module says
why that is enough, in `normalize_keeps_structure`. Bringing a text into the one spelling a second
time changes nothing, parts of a text can be spelled one by one, and the spelling has the same
separators, wildcards, delimiters and blanks in the same places, however its letters change.

What is said of a place follows from what `Proofs/Spelling` says of a single character, since
normalizing takes no character away and adds none.
-/

namespace PathSieve.Platform

open Text

variable {platform : Platform} {text : Text} {position : Nat}

/-- The character at a place of a spelling is the spelling of the character at that place. -/
theorem getElem?_normalize : (platform.normalize text)[position]? =
    text[position]?.map platform.normalizeChar :=
  List.getElem?_map

/-- A spelling has a separator at a place exactly when the text has one of the separators there. -/
theorem separator_at_normalize_iff :
    (platform.normalize text)[position]? = some platform.separator ↔
      ∃ character, text[position]? = some character ∧ platform.IsSeparator character := by
  simp only [getElem?_normalize, Option.map_eq_some_iff, normalizeChar_eq_separator_iff]

/-- A spelling has a mark other than a separator at a place exactly when the text has it there. -/
theorem mark_at_normalize_iff {mark : Char} (marked : isMark mark)
    (apart : ¬ platform.IsSeparator mark) :
    (platform.normalize text)[position]? = some mark ↔ text[position]? = some mark := by
  simp only [getElem?_normalize, Option.map_eq_some_iff, normalizeChar_eq_mark_iff marked apart,
    exists_eq_right]

/-- Wildcards and the delimiter of phrases that stand in one line are marks, and no platform
    separates by them. -/
theorem isMark_and_not_isSeparator (platform : Platform) {mark : Char}
    (kept : mark ∈ ['*', '?', ';']) :
    isMark mark ∧ ¬ platform.IsSeparator mark := by
  simp only [List.mem_cons, List.not_mem_nil, or_false] at kept
  rcases kept with rfl | rfl | rfl <;> cases platform <;> decide

/-- A spelling has blanks in the places in which the text has them. -/
theorem blank_at_normalize :
    (platform.normalize text)[position]?.map isBlank = text[position]?.map isBlank := by
  rw [getElem?_normalize, Option.map_map]
  exact congrArg (text[position]?.map ·) (funext (isBlank_normalizeChar platform))

/-- The text that was given is handed back exactly when it is in normal spelling. -/
theorem spell_eq_asGiven_iff :
    platform.spell text = .asGiven text ↔ platform.normalize text = text := by
  rw [← isNormal_iff, spell]
  split
  · next normal => exact iff_of_true rfl normal
  · next changed => exact iff_of_false Spelled.noConfusion changed

/-- Normalizing is a projection that keeps the structure of texts. What it gives is in normal
    spelling, and it spells the parts of a text one by one and every character as one. At each
    place the spelling has a separator where the text has either separator, the wildcards
    and the delimiter `;` where the text has them, and a blank where the text has a blank.
    The text itself is handed back when it is in normal spelling, and only then. -/
theorem normalize_keeps_structure (platform : Platform) (first second : Text) :
    platform.normalize (platform.normalize first) = platform.normalize first ∧
      platform.normalize (first ++ second) =
        platform.normalize first ++ platform.normalize second ∧
      (platform.normalize first).length = first.length ∧
      (∀ position : Nat,
        ((platform.normalize first)[position]? = some platform.separator ↔
          ∃ character, first[position]? = some character ∧ platform.IsSeparator character) ∧
        (∀ mark ∈ ['*', '?', ';'],
          (platform.normalize first)[position]? = some mark ↔ first[position]? = some mark) ∧
        (platform.normalize first)[position]?.map isBlank = first[position]?.map isBlank) ∧
      (platform.spell first).text = platform.normalize first ∧
      (platform.spell first = .asGiven first ↔ platform.normalize first = first) := by
  refine ⟨normalize_normalize platform first, normalize_append platform first second,
    length_normalize platform first, fun position => ⟨separator_at_normalize_iff, ?_,
      blank_at_normalize⟩, text_spell platform first, spell_eq_asGiven_iff⟩
  intro mark kept
  obtain ⟨marked, apart⟩ := isMark_and_not_isSeparator platform kept
  exact mark_at_normalize_iff marked apart

/-- A letter in title case, one with a capital of two characters and a mark above letters that has
    a capital of its own: the delimiter behind them stays where it is. -/
theorem normalize_keeps_structure_of_letters :
    ';' ∈ ['*', '?', ';'] ∧
      Platform.windows.normalize "ǅß/\u0345;?".toList = "Ǆß\\Ι;?".toList ∧
      (Platform.windows.normalize "ǅß/\u0345;?".toList)[4]? = some ';' := by
  have kept : ';' ∈ ['*', '?', ';'] := by decide
  obtain ⟨_, _, _, places, _⟩ := normalize_keeps_structure .windows "ǅß/\u0345;?".toList []
  obtain ⟨_, marks, _⟩ := places 4
  exact ⟨kept, by decide +kernel, (marks ';' kept).mpr rfl⟩

end PathSieve.Platform
