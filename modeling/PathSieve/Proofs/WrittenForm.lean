import PathSieve.Proofs.Canonical

/-!
# Masks written as phrases

A mask can be written as a phrase: anchored, and with a folder mark if it is for folders only.
This module says that rules lose nothing in this way: `compile_written` says that the phrases
of all their masks, joined in any order, come to the same rules again.

Not every mask would survive that. A blank at its end would be trimmed, a folder mark would
move it to the other scope, a delimiter would tear it apart, and a letter might be spelled
otherwise. Canonical masks have none of these, and whatever the history of rules, their masks are
canonical.
-/

namespace PathSieve

namespace Phrase

variable {platform : Platform} {phrase : Text} {scope : Scope} {mask : Mask}

/-- The phrase that a mask is written as. -/
def write (separator : Char) : Scope → Mask → Text
  | .entry, mask => separator :: mask
  | .folder, mask => separator :: (mask ++ [separator])

/-- The phrase of a canonical mask can be held in a list. -/
theorem listable_write (canonical : mask.IsCanonical platform scope) :
    Listable (write platform.separator scope mask) := by
  cases scope with
  | entry => exact listable_anchored platform (canonical.finish rfl) canonical.undelimited
  | folder =>
    apply listable_anchored platform
    · intro character ends
      obtain rfl : platform.separator = character := by
        simpa using ends
      exact Platform.isBlank_of_isSeparator (.inl rfl)
    · intro character member
      rcases List.mem_append.mp member with inMask | behind
      · exact canonical.undelimited character inMask
      · obtain rfl := List.mem_singleton.mp behind
        exact Platform.isDelimiter_of_isSeparator (.inl rfl)

/-- The phrase of a canonical mask gives that mask for its scope, and no other. -/
theorem mem_part_compile_write {other : Mask} {otherScope : Scope}
    (canonical : mask.IsCanonical platform scope) :
    other ∈ (compile platform (write platform.separator scope mask)).part otherScope ↔
      otherScope = scope ∧ other = mask := by
  cases scope with
  | entry =>
    rw [write, compile_anchored, canonical.normal,
      place_of_not_isMarked platform.separator_ne_run (canonical.unmarked rfl)]
    cases otherScope <;> simp [Scoped.part, mem_unlessEmpty, canonical.nonempty]
  | folder =>
    have spelled : platform.normalize (mask ++ [platform.separator]) =
        mask ++ [platform.separator] := by
      rw [Platform.normalize_below (.inl rfl), canonical.normal]
      rfl
    rw [write, compile_anchored, spelled,
      place_of_isMarked platform.separator_ne_run (.inl rfl)]
    cases otherScope <;> simp [Scoped.part, mem_unlessEmpty, canonical.nonempty]

end Phrase

namespace Selection

/-- The phrases that the masks of a selection are written as. -/
def written (selection : Selection) (separator : Char) : List Text :=
  (selection.map OrderedSet.toList).labelled.map fun (scope, mask) =>
    Phrase.write separator scope mask

/-- Every mask of a selection is written as a phrase, and nothing else is. -/
theorem mem_written {selection : Selection} {separator : Char} {phrase : Text} :
    phrase ∈ selection.written separator ↔
      ∃ scope, ∃ mask ∈ selection.part scope, Phrase.write separator scope mask = phrase := by
  simp [written]

/-- The phrases of canonical masks, joined in any order, select these masks. -/
theorem ofText_written {selection : Selection} {platform : Platform} {phrases : List Text}
    (canonical : ∀ scope, ∀ mask ∈ selection.part scope, mask.IsCanonical platform scope)
    (order : phrases.Perm (selection.written platform.separator)) :
    ofText platform ([';'].intercalate phrases) = selection := by
  have listable : ∀ phrase ∈ phrases, Phrase.Listable phrase := by
    intro phrase member
    obtain ⟨scope, mask, inSelection, rfl⟩ := mem_written.mp (order.mem_iff.mp member)
    exact Phrase.listable_write (canonical scope mask inSelection)
  apply eq_of_parts
  intro scope mask
  rw [mem_part_ofText, Phrase.split_intercalate (by decide) listable]
  constructor
  · rintro ⟨phrase, member, compiled⟩
    obtain ⟨written, original, inSelection, rfl⟩ := mem_written.mp (order.mem_iff.mp member)
    obtain ⟨rfl, rfl⟩ :=
      (Phrase.mem_part_compile_write (canonical written original inSelection)).mp compiled
    exact inSelection
  · intro inSelection
    refine ⟨Phrase.write platform.separator scope mask, ?_, ?_⟩
    · exact order.mem_iff.mpr (mem_written.mpr ⟨scope, mask, inSelection, rfl⟩)
    · exact (Phrase.mem_part_compile_write (canonical scope mask inSelection)).mpr ⟨rfl, rfl⟩

end Selection

namespace History

variable {history : History} {platform : Platform} {scope : Scope} {mask : Mask}

/-- The rules of a history are among those that there can be. -/
theorem reachable_rules (history : History) (platform : Platform) :
    (history.rules platform).Reachable :=
  (Rules.Reachable.compiled platform history.included history.excluded).foldl_exclude
    history.additions

/-- The masks of what is let through are canonical. -/
theorem isCanonical_of_mem_included (member : mask ∈ (history.rules platform).included.part scope) :
    mask.IsCanonical platform scope := by
  have canonical := (history.reachable_rules platform).isCanonical.included scope mask member
  rwa [platform_rules] at canonical

/-- The masks of what is held back are canonical, also those of additions. -/
theorem isCanonical_of_mem_excluded (member : mask ∈ (history.rules platform).excluded.part scope) :
    mask.IsCanonical platform scope := by
  have canonical := (history.reachable_rules platform).isCanonical.excluded scope mask member
  rwa [platform_rules] at canonical

/-- What rules have come to can be written down again: each mask as an anchored phrase, with a
    separator behind a mask for folders. Whatever the history of the rules, the phrases of
    either side joined with semicolons, in any order, come to the same rules. -/
theorem compile_written (history : History) (platform : Platform)
    {includedPhrases excludedPhrases : List Text}
    (included : includedPhrases.Perm
      ((history.rules platform).included.written platform.separator))
    (excluded : excludedPhrases.Perm
      ((history.rules platform).excluded.written platform.separator)) :
    Rules.compile platform ([';'].intercalate includedPhrases)
      ([';'].intercalate excludedPhrases) = history.rules platform := by
  apply Rules.eq_of_parts
  · exact Selection.ofText_written (fun _ _ => isCanonical_of_mem_included) included
  · exact Selection.ofText_written (fun _ _ => isCanonical_of_mem_excluded) excluded
  · exact platform_rules.symm

/-- Manuals at any depth without drafts, which were named later on. Of two lists and an addition
    five phrases are left, in capitals, each for one mask. -/
theorem compile_written_manuals :
    let history := History.mk "*/manuals/".toList "*.tmp".toList ["draft ?; /cache/*".toList]
    let included := ["/MANUALS/".toList, "/*/MANUALS/".toList]
    let excluded := ["/CACHE/".toList, "/DRAFT ?".toList, "/*.TMP".toList]
    included.Perm ((history.rules .macos).included.written '/') ∧
      excluded.Perm ((history.rules .macos).excluded.written '/') ∧
      Rules.compile .macos ([';'].intercalate included) ([';'].intercalate excluded) =
        history.rules .macos := by
  intro history included excluded
  have includedOrder : included.Perm ((history.rules .macos).included.written '/') := by
    decide +kernel
  have excludedOrder : excluded.Perm ((history.rules .macos).excluded.written '/') := by
    decide +kernel
  exact ⟨includedOrder, excludedOrder,
    compile_written history .macos includedOrder excludedOrder⟩

end History

end PathSieve
