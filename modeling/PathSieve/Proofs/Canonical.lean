import PathSieve.Proofs.Anchoring
import PathSieve.Proofs.Exclusion
import PathSieve.Proofs.History

/-!
# The form of masks in rules

When a path is judged its spelling is compared with masks as they are, and nothing is trimmed,
cut up or folded any more. So all that must have happened to a mask before. `Mask.IsCanonical`
says what is left then: a text in normal spelling that is not empty and has no delimiter in it
and that, for entries of any kind, neither bears a folder mark nor ends with a blank.
`isCanonical_of_mem_compile` says that compilation leaves no other masks.

Rules are made of two lists, or to let everything through, and from then on lists of exclusions
may be added to them. An addition brings in masks of phrases and touches nothing else, so it
keeps rules canonical (`IsCanonical.exclude`), and so does any run of additions
(`Reachable.isCanonical`). `masks_of_reachable` says at length what this means for the masks
that rules can ever have, and what an addition leaves alone.
-/

namespace PathSieve

/-- The form of a mask as compilation leaves it: a piece of a phrase in normal spelling that is
    not empty and, for entries of any kind, neither bears a folder mark nor ends with a blank. -/
structure Mask.IsCanonical (platform : Platform) (scope : Scope) (mask : Mask) : Prop where
  nonempty : mask ≠ []
  undelimited : ∀ character ∈ mask, Phrase.isDelimiter character = false
  normal : platform.normalize mask = mask
  unmarked : scope = .entry → ∀ name, ¬ Phrase.IsMarked platform.separator mask name
  finish : scope = .entry → ∀ character ∈ mask.getLast?, Text.isBlank character = false

namespace Phrase

variable {platform : Platform} {phrase : Text} {scope : Scope} {mask : Mask}

/-- The spelling of a phrase that a list can hold does not end with a blank. -/
theorem Listable.normalize_finish (listable : Listable phrase) :
    ∀ character ∈ (platform.normalize phrase).getLast?, Text.isBlank character = false := by
  intro character ends
  rw [Platform.normalize, List.getLast?_map] at ends
  obtain ⟨last, phraseEnds, rfl⟩ := Option.map_eq_some_iff.mp ends
  rw [Platform.isBlank_normalizeChar]
  exact listable.finish last phraseEnds

/-- The spelling of a phrase that a list can hold has no delimiter in it. -/
theorem Listable.normalize_undelimited (listable : Listable phrase) :
    ∀ character ∈ platform.normalize phrase, isDelimiter character = false := by
  intro character member
  obtain ⟨original, within, rfl⟩ := List.mem_map.mp member
  rw [Platform.isDelimiter_normalizeChar]
  exact listable.undelimited original within

/-- The masks of a phrase that a list can hold are canonical. They are pieces of its spelling,
    and a mask for entries reaches to the end of it. -/
theorem isCanonical_of_mem_compile (listable : Listable phrase)
    (member : mask ∈ (compile platform phrase).part scope) :
    mask.IsCanonical platform scope := by
  have within : mask <:+: platform.normalize phrase := infix_of_mem_compile member
  rw [compile, Scoped.part_flatMap] at member
  obtain ⟨anchored, anchoring, placed⟩ := List.mem_flatMap.mp member
  have nonempty : mask ≠ [] := (of_mem_place placed).1
  refine {
    nonempty := nonempty
    undelimited := fun character inMask =>
      listable.normalize_undelimited character (within.subset inMask)
    normal := ?_
    unmarked := ?_
    finish := ?_ }
  · obtain ⟨original, rfl⟩ := Platform.exists_normalize_of_infix within
    exact Platform.normalize_normalize platform original
  · rintro rfl
    obtain ⟨rfl, _, unmarked⟩ := (mem_entry_place platform.separator_ne_run).mp placed
    exact unmarked
  · rintro rfl character ends
    obtain ⟨rfl, _, _⟩ := (mem_entry_place platform.separator_ne_run).mp placed
    obtain ⟨start, whole⟩ := suffix_of_mem_anchorings anchoring
    apply listable.normalize_finish character
    rw [← whole, List.getLast?_append, Option.mem_def.mp ends]
    rfl

end Phrase

namespace Mask.IsCanonical

variable {platform : Platform} {scope : Scope} {mask : Mask}

/-- In a canonical mask nothing is left that would be spelled otherwise: no second separator
    and, where case does not matter, no letter other than a capital. -/
theorem spelled (canonical : mask.IsCanonical platform scope) {character : Char}
    (member : character ∈ mask) :
    platform.alternate? ≠ some character ∧
      (platform.foldsCase → Text.capital character = character) := by
  have normal : platform.isNormal mask := Platform.isNormal_iff.mpr canonical.normal
  have kept : platform.normalizeChar character = character := by
    simpa using List.all_eq_true.mp normal character member
  exact Platform.normalizeChar_eq_self_iff.mp kept

/-- A canonical mask for entries of any kind ends with none of the two folder marks. -/
theorem unmarked_end (canonical : mask.IsCanonical platform .entry) :
    ¬ [platform.separator] <:+ mask ∧ ¬ [platform.separator, '*'] <:+ mask := by
  constructor
  · rintro ⟨name, split⟩
    exact canonical.unmarked rfl name (.inl split.symm)
  · rintro ⟨name, split⟩
    exact canonical.unmarked rfl name (.inr split.symm)

end Mask.IsCanonical

/-- A list of phrases selects canonical masks only. -/
theorem Selection.isCanonical_of_mem_ofText {platform : Platform} {text : Text} {scope : Scope}
    {mask : Mask} (member : mask ∈ (ofText platform text).part scope) :
    mask.IsCanonical platform scope := by
  obtain ⟨phrase, given, compiled⟩ := mem_part_ofText.mp member
  exact Phrase.isCanonical_of_mem_compile (Phrase.listable_of_mem_split given) compiled

namespace Rules

/-- Rules that have canonical masks only, on either side. -/
structure IsCanonical (rules : Rules) : Prop where
  included : ∀ scope, ∀ mask ∈ rules.included.part scope, mask.IsCanonical rules.platform scope
  excluded : ∀ scope, ∀ mask ∈ rules.excluded.part scope, mask.IsCanonical rules.platform scope

/-- The rules that there can be: made of two lists or to let everything through, and then
    extended by any number of lists of exclusions. -/
inductive Reachable : Rules → Prop where
  | compiled (platform : Platform) (included excluded : Text) :
      Reachable (compile platform included excluded)
  | unrestricted (platform : Platform) : Reachable (unrestricted platform)
  | extended {rules : Rules} (text : Text) (reachable : Reachable rules) :
      Reachable (rules.exclude text)

/-- Rules made of two lists are canonical. -/
theorem isCanonical_compile (platform : Platform) (included excluded : Text) :
    (compile platform included excluded).IsCanonical where
  included := fun _ _ => Selection.isCanonical_of_mem_ofText
  excluded := fun _ _ => Selection.isCanonical_of_mem_ofText

/-- Rules that let everything through are canonical, as they might be made of a lone `*`. -/
theorem isCanonical_unrestricted (platform : Platform) : (unrestricted platform).IsCanonical := by
  rw [← compile_run_nil]
  exact isCanonical_compile platform ['*'] []

/-- An addition keeps rules canonical: the masks that it brings in are those of its phrases, read
    in the spelling of the rules. -/
theorem IsCanonical.exclude {rules : Rules} (canonical : rules.IsCanonical) (text : Text) :
    (rules.exclude text).IsCanonical where
  included := canonical.included
  excluded := by
    intro scope mask member
    rcases mem_part_excluded_exclude.mp member with before | added
    · exact canonical.excluded scope mask before
    · exact Selection.isCanonical_of_mem_ofText (Selection.mem_part_ofText.mpr added)

namespace Reachable

/-- A run of additions to rules that there can be gives rules that there can be. -/
theorem foldl_exclude {rules : Rules} (reachable : rules.Reachable) (additions : List Text) :
    (additions.foldl exclude rules).Reachable := by
  induction additions generalizing rules with
  | nil => exact reachable
  | cons text additions inductionHypothesis =>
    exact inductionHypothesis (reachable.extended text)

/-- All rules that there can be are canonical. -/
theorem isCanonical {rules : Rules} (reachable : rules.Reachable) : rules.IsCanonical := by
  induction reachable with
  | compiled platform included excluded => exact isCanonical_compile platform included excluded
  | unrestricted platform => exact isCanonical_unrestricted platform
  | extended text _ inductionHypothesis => exact inductionHypothesis.exclude text

end Reachable

/-- Whatever lists rules were made of and however often exclusions were added to them, their
    masks are not empty, have no delimiter in them and are in the normal spelling of the
    platform, so that no second separator and no letter is left to be spelled otherwise. A mask
    for entries of any kind ends with no folder mark and with no blank. One more addition leaves
    what is let through and the platform as they are and takes no mask away. -/
theorem masks_of_reachable {rules : Rules} (reachable : rules.Reachable) :
    (∀ scope mask, mask ∈ rules.included.part scope ∨ mask ∈ rules.excluded.part scope →
      mask ≠ [] ∧ ';' ∉ mask ∧ '\n' ∉ mask ∧ rules.platform.normalize mask = mask ∧
        (∀ character ∈ mask, rules.platform.alternate? ≠ some character ∧
          (rules.platform.foldsCase → Text.capital character = character)) ∧
        (scope = .entry →
          ¬ [rules.platform.separator] <:+ mask ∧ ¬ [rules.platform.separator, '*'] <:+ mask ∧
            ∀ character ∈ mask.getLast?, Text.isBlank character = false)) ∧
    ∀ text,
      (rules.exclude text).included = rules.included ∧
        (rules.exclude text).platform = rules.platform ∧
        ∀ scope, ∀ mask ∈ rules.excluded.part scope,
          mask ∈ (rules.exclude text).excluded.part scope := by
  have whole : rules.IsCanonical := reachable.isCanonical
  constructor
  · intro scope mask member
    have canonical : mask.IsCanonical rules.platform scope :=
      member.elim (whole.included scope mask) (whole.excluded scope mask)
    obtain ⟨noSemicolon, noLineBreak⟩ :=
      Phrase.forall_not_isDelimiter_iff.mp canonical.undelimited
    refine ⟨canonical.nonempty, noSemicolon, noLineBreak, canonical.normal,
      fun _ within => canonical.spelled within, ?_⟩
    rintro rfl
    obtain ⟨noSeparator, noSeparatorRun⟩ := canonical.unmarked_end
    exact ⟨noSeparator, noSeparatorRun, canonical.finish rfl⟩
  · intro text
    exact ⟨rfl, rfl, fun _ _ before => mem_part_excluded_exclude.mpr (.inl before)⟩

/-- Folders for temporary files are held back at any depth, then backups as well. The masks for
    the folders stay, and the mask for the backups is spelled in capitals, whatever blanks and
    delimiters it was written between. -/
theorem masks_of_temporaries :
    let earlier := (unrestricted .windows).exclude "*/Tmp/*".toList
    let later := earlier.exclude "; *.bak \n;".toList
    later.Reachable ∧ "*\\TMP".toList ∈ later.excluded.part .folder ∧
      "*.BAK".toList ∈ later.excluded.part .entry ∧
      Platform.windows.normalize "*.BAK".toList = "*.BAK".toList ∧
      ¬ ['\\'] <:+ "*.BAK".toList := by
  intro earlier later
  have first : earlier.Reachable := (Reachable.unrestricted .windows).extended _
  have second : later.Reachable := first.extended _
  have folders : "*\\TMP".toList ∈ earlier.excluded.part .folder :=
    OrderedSet.mem_toList.mp (by decide +kernel)
  have backups : "*.BAK".toList ∈ later.excluded.part .entry :=
    OrderedSet.mem_toList.mp (by decide +kernel)
  obtain ⟨_, grows⟩ := masks_of_reachable first
  obtain ⟨_, _, kept⟩ := grows "; *.bak \n;".toList
  obtain ⟨masks, _⟩ := masks_of_reachable second
  obtain ⟨_, _, _, normal, _, ends⟩ := masks .entry "*.BAK".toList (.inr backups)
  exact ⟨second, kept .folder _ folders, backups, normal, (ends rfl).1⟩

end Rules

end PathSieve
