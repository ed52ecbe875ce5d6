import PathSieve.Selection

/-!
# Masks and the phrases they come from

Compiling cuts a phrase, in normal spelling, at both ends and adds nothing to it. This
module says what the masks keep of the phrase: `infix_of_mem_compile` says that they are
pieces of it, and `mem_part_ofText` that a selection has the masks of its phrases and no
others.
-/

namespace PathSieve

/-- A piece of a text in normal spelling is the normal spelling of a piece of that text. -/
theorem Platform.exists_normalize_of_infix {platform : Platform} {piece original : Text}
    (within : piece <:+: platform.normalize original) :
    ∃ part, platform.normalize part = piece := by
  obtain ⟨part, _, same⟩ := List.infix_map_iff.mp within
  exact ⟨part, same.symm⟩

namespace Phrase

variable {platform : Platform} {separator : Char} {phrase : Text} {mask : Mask}

/-- A mask is kept exactly when it is not empty. -/
theorem mem_unlessEmpty {kept : Mask} : kept ∈ unlessEmpty mask ↔ kept = mask ∧ mask ≠ [] := by
  cases mask <;> simp [unlessEmpty]

/-- The name before a folder mark is the beginning of the phrase. -/
theorem prefix_of_beforeFolderMark? {folder : Text}
    (marked : beforeFolderMark? separator phrase = some folder) : folder <+: phrase := by
  rcases Option.or_eq_some_iff.mp marked with cut | ⟨_, cut⟩
  · exact ⟨_, (Text.before?_eq_some_iff.mp cut).symm⟩
  · exact ⟨_, (Text.before?_eq_some_iff.mp cut).symm⟩

/-- The mask of an anchored phrase is a beginning of it, and there is none if that is empty. -/
theorem of_mem_place {scope : Scope} (member : mask ∈ (place separator phrase).part scope) :
    mask ≠ [] ∧ mask <+: phrase := by
  unfold place at member
  split at member
  · next folder marked =>
    cases scope with
    | entry => exact absurd member List.not_mem_nil
    | folder =>
      obtain ⟨rfl, nonempty⟩ := mem_unlessEmpty.mp member
      exact ⟨nonempty, prefix_of_beforeFolderMark? marked⟩
  · cases scope with
    | entry =>
      obtain ⟨rfl, nonempty⟩ := mem_unlessEmpty.mp member
      exact ⟨nonempty, List.prefix_rfl⟩
    | folder => exact absurd member List.not_mem_nil

/-- Anchoring a phrase takes nothing but a beginning off. -/
theorem suffix_of_mem_anchorings {anchored : Text}
    (member : anchored ∈ anchorings separator phrase) : anchored <:+ phrase := by
  unfold anchorings at member
  split at member
  · next rest cut =>
    obtain rfl := List.mem_singleton.mp member
    exact ⟨_, (Text.after?_eq_some_iff.mp cut).symm⟩
  · rcases List.mem_cons.mp member with rfl | member
    · exact List.suffix_rfl
    · have cut := Option.mem_toList.mp member
      exact ⟨_, (Text.after?_eq_some_iff.mp cut).symm⟩

/-- A mask of a phrase is a piece of the phrase in normal spelling. -/
theorem infix_of_mem_compile {scope : Scope}
    (member : mask ∈ (compile platform phrase).part scope) :
    mask <:+: platform.normalize phrase := by
  rw [compile, Scoped.part_flatMap] at member
  obtain ⟨anchored, anchoring, placed⟩ := List.mem_flatMap.mp member
  have begins : mask <+: anchored := (of_mem_place placed).2
  have ends : anchored <:+ platform.normalize phrase := suffix_of_mem_anchorings anchoring
  exact begins.isInfix.trans ends.isInfix

end Phrase

namespace Selection

/-- The masks of a list of phrases are those that its phrases compile to. -/
theorem mem_part_ofText {platform : Platform} {text : Text} {scope : Scope} {mask : Mask} :
    mask ∈ (ofText platform text).part scope ↔
      ∃ phrase ∈ Phrase.split text, mask ∈ (Phrase.compile platform phrase).part scope := by
  simp [ofText, Phrase.compileAll]

/-- A list that gives no mask selects nothing. -/
theorem ofText_eq_nothing {platform : Platform} {text : Text}
    (none : Phrase.compileAll platform text = ⟨[], []⟩) : ofText platform text = nothing := by
  rw [ofText, none]
  rfl

end Selection

end PathSieve
