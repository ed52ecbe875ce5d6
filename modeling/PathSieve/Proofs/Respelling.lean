import PathSieve.Proofs.Compilation
import PathSieve.Proofs.Judgement

/-!
# Masks and paths respelled

The same list can be compiled for two platforms. Where their spellings differ by no more than a
change of single characters, the masks of the one platform are those of the other after that
change, and so are the paths that they are compared with. This module says what carries over.

`Respelling` says what the change has to respect: it takes the one separator, and nothing else,
to the other, and makes no wildcard of any other character. It need not keep different
characters apart. So `compile_of_spelled` is an equation between masks, while
`Describes.respelled` and what follows from it go one way only: what a mask describes is still
described after the change, but other texts may be described as well.

A selection that has every mask of another after the change picks wherever the other picks, and
`picksWherever_ofText` says so of a list that two platforms spell alike but for the change.
`includeVerdict_le` and `excludeVerdict_le` put that in terms of verdicts, and `same` says what it
comes to when a change back does the same the other way round.
-/

namespace PathSieve

/-- A change of single characters that respects what masks and paths are made of: it takes one
    separator to another, the wildcards to themselves, and nothing else to any of these. -/
structure Respelling (change : Char → Char) (before after : Char) : Prop where
  separator : ∀ character, change character = after ↔ character = before
  run : ∀ character, change character = '*' ↔ character = '*'
  single : ∀ character, change character = '?' ↔ character = '?'

namespace Respelling

variable {change : Char → Char} {before after : Char} (respelling : Respelling change before after)
include respelling

/-- The separator becomes the other separator. -/
theorem change_separator : change before = after :=
  (respelling.separator before).mpr rfl

/-- A `*` stays a `*`. -/
theorem change_run : change '*' = '*' :=
  (respelling.run '*').mpr rfl

/-- A `?` stays a `?`. -/
theorem change_single : change '?' = '?' :=
  (respelling.single '?').mpr rfl

/-- A separator or a `*` is what no other character is taken to. -/
theorem change_eq_change_iff {expected : Char} (structural : expected = before ∨ expected = '*')
    (character : Char) : change character = change expected ↔ character = expected := by
  rcases structural with rfl | rfl
  · rw [respelling.change_separator, respelling.separator]
  · rw [respelling.change_run, respelling.run]

/-- A start of separators and `*`s may be cut off a text before or after the change. -/
theorem after?_map {start respelled : Text}
    (structural : ∀ expected ∈ start, expected = before ∨ expected = '*')
    (becomes : start.map change = respelled) (text : Text) :
    Text.after? respelled (text.map change) = (Text.after? start text).map (List.map change) := by
  subst becomes
  induction start generalizing text with
  | nil => rfl
  | cons expected start inductionHypothesis =>
    obtain ⟨firstStructural, restStructural⟩ := List.forall_mem_cons.mp structural
    cases text with
    | nil => rfl
    | cons first text =>
      have kept := respelling.change_eq_change_iff firstStructural first
      by_cases same : first = expected
      · simp [Text.after?, same, inductionHypothesis restStructural]
      · simp [Text.after?, same, kept]

/-- An end of separators and `*`s may be cut off a text before or after the change. -/
theorem before?_map {finish respelled : Text}
    (structural : ∀ expected ∈ finish, expected = before ∨ expected = '*')
    (becomes : finish.map change = respelled) (text : Text) :
    Text.before? respelled (text.map change) =
      (Text.before? finish text).map (List.map change) := by
  have reversed : ∀ expected ∈ finish.reverse, expected = before ∨ expected = '*' := by
    simpa using structural
  have reversedBecomes : finish.reverse.map change = respelled.reverse := by
    rw [List.map_reverse, becomes]
  rw [Text.before?, Text.before?, ← List.map_reverse,
    respelling.after?_map reversed reversedBecomes, Option.map_map, Option.map_map]
  congr 1
  funext head
  exact List.map_reverse.symm

end Respelling

namespace Phrase

variable {change : Char → Char} {before after : Char}

/-- The name before a folder mark is respelled with the phrase. -/
theorem beforeFolderMark?_map (respelling : Respelling change before after) (phrase : Text) :
    beforeFolderMark? after (phrase.map change) =
      (beforeFolderMark? before phrase).map (List.map change) := by
  have plain : Text.before? [after] (phrase.map change) =
      (Text.before? [before] phrase).map (List.map change) :=
    respelling.before?_map (by simp) (by simp [respelling.change_separator]) phrase
  have withRun : Text.before? [after, '*'] (phrase.map change) =
      (Text.before? [before, '*'] phrase).map (List.map change) :=
    respelling.before?_map (by simp)
      (by simp [respelling.change_separator, respelling.change_run]) phrase
  rw [beforeFolderMark?, beforeFolderMark?, plain, withRun, Option.map_or]

/-- The mask of an anchored phrase is respelled with the phrase and keeps its scope. -/
theorem place_map (respelling : Respelling change before after) (phrase : Text) :
    place after (phrase.map change) = (place before phrase).map (List.map (List.map change)) := by
  have unlessEmpty_map (mask : Mask) :
      unlessEmpty (mask.map change) = (unlessEmpty mask).map (List.map change) := by
    cases mask <;> rfl
  rw [place, place, beforeFolderMark?_map respelling]
  cases beforeFolderMark? before phrase with
  | none => simp [Scoped.map, unlessEmpty_map]
  | some folder => simp [Scoped.map, unlessEmpty_map]

/-- The anchored phrases that a phrase stands for are respelled with it. -/
theorem anchorings_map (respelling : Respelling change before after) (phrase : Text) :
    anchorings after (phrase.map change) = (anchorings before phrase).map (List.map change) := by
  have anchored : Text.after? [after] (phrase.map change) =
      (Text.after? [before] phrase).map (List.map change) :=
    respelling.after?_map (by simp) (by simp [respelling.change_separator]) phrase
  have anyDepth : Text.after? ['*', after] (phrase.map change) =
      (Text.after? ['*', before] phrase).map (List.map change) :=
    respelling.after?_map (by simp)
      (by simp [respelling.change_separator, respelling.change_run]) phrase
  rw [anchorings, anchorings, anchored, anyDepth]
  cases Text.after? [before] phrase with
  | none => cases Text.after? ['*', before] phrase <;> rfl
  | some rest => rfl

/-- Where two platforms spell a phrase alike but for the change, its masks differ by the change
    and by nothing else. -/
theorem compile_of_spelled {first second : Platform} {phrase : Text}
    (respelling : Respelling change first.separator second.separator)
    (spelled : second.normalize phrase = (first.normalize phrase).map change) :
    compile second phrase = (compile first phrase).map (List.map (List.map change)) := by
  rw [compile, compile, spelled, anchorings_map respelling]
  simp only [Scoped.flatMap, List.flatMap_map, place_map respelling, Scoped.map, List.map_flatMap]

end Phrase

/-- A mask may stop before the respelled rest of a path where it may stop before the rest. -/
theorem Extent.accepts_map {change : Char → Char} {before after : Char}
    (respelling : Respelling change before after) (extent : Extent) (rest : Text) :
    extent.accepts after (rest.map change) = extent.accepts before rest := by
  cases rest with
  | nil => cases extent <;> rfl
  | cons first rest =>
    have separates : (some (change first) == some after) = (some first == some before) := by
      rw [Bool.eq_iff_iff, beq_iff_eq, beq_iff_eq, Option.some_inj, Option.some_inj]
      exact respelling.separator first
    cases extent with
    | whole => rfl
    | ancestor => exact separates
    | either => exact congrArg (false || ·) separates

namespace Mask

variable {change : Char → Char} {before after : Char} {mask : Mask} {text path : Text}

/-- What a mask describes is described by the respelled mask after the change. -/
theorem Describes.respelled (respelling : Respelling change before after)
    (described : Describes mask text) : Describes (mask.map change) (text.map change) := by
  induction described with
  | empty => exact .empty
  | run run _ inductionHypothesis =>
    rw [List.map_cons, List.map_append, respelling.change_run]
    exact .run (run.map change) inductionHypothesis
  | single character _ inductionHypothesis =>
    rw [List.map_cons, List.map_cons, respelling.change_single]
    exact .single (change character) inductionHypothesis
  | literal symbol notRun notSingle _ inductionHypothesis =>
    have stillNotRun : change symbol ≠ '*' := mt (respelling.run symbol).mp notRun
    have stillNotSingle : change symbol ≠ '?' := mt (respelling.single symbol).mp notSingle
    exact .literal (change symbol) stillNotRun stillNotSingle inductionHypothesis

/-- A path that a mask covers is covered by the respelled mask after the change. -/
theorem covers_map {extent : Extent} (respelling : Respelling change before after)
    (covered : mask.covers extent before path) :
    Mask.covers (mask.map change) extent after (path.map change) := by
  obtain ⟨described, rest, rfl, language, accepted⟩ := covers_iff.mp covered
  have stops : extent.accepts after (rest.map change) := by
    rwa [Extent.accepts_map respelling]
  exact covers_iff.mpr
    ⟨described.map change, rest.map change, List.map_append, language.respelled respelling, stops⟩

/-- A path that a mask may begin with is one that the respelled mask may begin with after the
    change. -/
theorem mayBegin_map (respelling : Respelling change before after) (begins : mask.mayBegin path) :
    Mask.mayBegin (mask.map change) (path.map change) := by
  obtain ⟨finish, described⟩ := mayBegin_iff.mp begins
  have respelled := described.respelled respelling
  rw [List.map_append] at respelled
  exact mayBegin_iff.mpr ⟨finish.map change, respelled⟩

end Mask

namespace Selection

/-- Every mask of the one selection, respelled, is a mask of the other for the same scope. -/
def CarriesInto (change : Char → Char) (first second : Selection) : Prop :=
  ∀ scope, ∀ mask ∈ first.part scope, mask.map change ∈ second.part scope

/-- Where two platforms spell the phrases of a list alike but for a change, the change carries
    the masks of the one into those of the other. -/
theorem carriesInto_ofText {change : Char → Char} {first second : Platform} {text : Text}
    (respelling : Respelling change first.separator second.separator)
    (spelled : ∀ phrase ∈ Phrase.split text,
      second.normalize phrase = (first.normalize phrase).map change) :
    CarriesInto change (ofText first text) (ofText second text) := by
  intro scope mask member
  obtain ⟨phrase, given, compiled⟩ := mem_part_ofText.mp member
  refine mem_part_ofText.mpr ⟨phrase, given, ?_⟩
  rw [Phrase.compile_of_spelled respelling (spelled phrase given), Scoped.part_map]
  exact List.mem_map_of_mem compiled

/-- About one path a selection answers yes wherever another does so about another path. Both paths
    are spelled with the separators beside them. -/
structure PicksWherever (second : Selection) (after : Char) (respelled : Text) (first : Selection)
    (before : Char) (path : Text) : Prop where
  file : first.coversFile before path → second.coversFile after respelled
  folder : first.coversFolder before path → second.coversFolder after respelled
  below : first.mayCoverBelow before path → second.mayCoverBelow after respelled

/-- After a respelling that carries the masks of a selection into those of another, the other
    picks wherever the first does. -/
theorem CarriesInto.picksWherever {change : Char → Char} {before after : Char}
    {first second : Selection} (carries : CarriesInto change first second)
    (respelling : Respelling change before after) (path : Text) :
    second.PicksWherever after (path.map change) first before path := by
  have exists_mask {holds becomes : Scope → Mask → Prop}
      (respelled : ∀ scope mask, holds scope mask → becomes scope (mask.map change)) :
      (∃ scope, ∃ mask ∈ first.part scope, holds scope mask) →
        ∃ scope, ∃ mask ∈ second.part scope, becomes scope mask := by
    rintro ⟨scope, mask, member, held⟩
    exact ⟨scope, mask.map change, carries scope mask member, respelled scope mask held⟩
  have prefixes : path.map change ++ [after] = (path ++ [before]).map change := by
    rw [List.map_append, List.map_singleton, respelling.change_separator]
  constructor
  · rw [coversFile_iff, coversFile_iff]
    exact exists_mask fun _ _ => Mask.covers_map respelling
  · rw [coversFolder_iff, coversFolder_iff]
    exact exists_mask fun _ _ => Mask.covers_map respelling
  · rw [mayCoverBelow_iff, mayCoverBelow_iff, prefixes]
    exact exists_mask fun _ _ => Mask.mayBegin_map respelling

/-- Where two platforms spell the phrases of a list and a path alike but for a change, the list picks
    on the second wherever it picks on the first. -/
theorem picksWherever_ofText {change : Char → Char} {first second : Platform} {text path : Text}
    (respelling : Respelling change first.separator second.separator)
    (spelled : ∀ phrase ∈ Phrase.split text,
      second.normalize phrase = (first.normalize phrase).map change)
    (pathSpelled : second.normalize path = (first.normalize path).map change) :
    (ofText second text).PicksWherever second.separator (second.normalize path)
      (ofText first text) first.separator (first.normalize path) := by
  rw [pathSpelled]
  exact (carriesInto_ofText respelling spelled).picksWherever respelling _

namespace PicksWherever

variable {first second : Selection} {before after : Char} {path respelled : Text}

/-- To let through what is picked wherever another selection picks gives no stricter verdict. -/
theorem includeVerdict_le (picks : second.PicksWherever after respelled first before path) :
    first.includeVerdict before path ≤ second.includeVerdict after respelled := by
  rw [includeVerdict, includeVerdict]
  by_cases picked : first.coversFolder before path
  · rw [if_pos picked, if_pos (picks.folder picked)]
    exact Verdict.le_pass .pass
  · rw [if_neg picked]
    by_cases reached : first.mayCoverBelow before path
    · rw [reached, picks.below reached]
      split
      · exact Verdict.le_pass _
      · exact Nat.le_refl _
    · rw [Bool.eq_false_iff.mpr reached]
      exact Nat.zero_le _

/-- To hold back what is picked wherever another selection picks gives no more permissive
    verdict. -/
theorem excludeVerdict_le (picks : second.PicksWherever after respelled first before path) :
    second.excludeVerdict after respelled ≤ first.excludeVerdict before path := by
  rw [excludeVerdict, excludeVerdict]
  by_cases picked : first.coversFolder before path
  · rw [if_pos picked, if_pos (picks.folder picked)]
    exact Nat.le_refl _
  · rw [if_neg picked]
    exact Verdict.le_pass _

/-- Selections that pick wherever each other does pick the same files and give the same verdicts,
    whether they say what is let through or what is held back. -/
theorem same (forth : second.PicksWherever after respelled first before path)
    (back : first.PicksWherever before path second after respelled) :
    second.coversFile after respelled = first.coversFile before path ∧
      second.includeVerdict after respelled = first.includeVerdict before path ∧
      second.excludeVerdict after respelled = first.excludeVerdict before path :=
  ⟨Bool.eq_iff_iff.mpr ⟨back.file, forth.file⟩,
    Verdict.le_antisymm back.includeVerdict_le forth.includeVerdict_le,
    Verdict.le_antisymm forth.excludeVerdict_le back.excludeVerdict_le⟩

end PicksWherever

end Selection

end PathSieve
