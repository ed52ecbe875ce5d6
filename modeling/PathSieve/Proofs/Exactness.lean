import PathSieve.Proofs.Compilation
import PathSieve.Proofs.Pruning

/-!
# What is promised below a folder

A verdict may say that something below a folder goes through without naming it. For rules
that hold nothing back such a promise is kept: `shouldDescend_iff_passes_below` says that a
folder is entered exactly when some file below it goes through, whether or not such a file
is there to be found.

The file has to be made up. A mask that may begin with the folder and a separator is
gone on with by an end of the mask itself. What is made up has to be a path in a spelling
from which the platform makes that end; there is one because masks are pieces of phrases
in normal spelling, as `infix_of_mem_compile` says. A last separator behind it makes the
mask describe a folder above the file, so that it does not matter which scope the mask
has.
-/

namespace PathSieve

namespace Selection

/-- What selects nothing picks no folder. -/
@[simp] theorem coversFolder_nothing (separator : Char) (path : Text) :
    nothing.coversFolder separator path = false := rfl

/-- What selects nothing picks no file. -/
@[simp] theorem coversFile_nothing (separator : Char) (path : Text) :
    nothing.coversFile separator path = false := rfl

/-- Where a list of phrases picks a folder or might pick something beyond it, it picks some
    file below the folder. -/
theorem exists_coversFile_below {platform : Platform} {text folder : Text}
    (reached : (ofText platform text).coversFolder platform.separator folder ∨
      (ofText platform text).mayCoverBelow platform.separator folder) :
    ∃ below, (ofText platform text).coversFile platform.separator
      (folder ++ platform.separator :: platform.normalize below) := by
  rcases reached with picked | beyond
  · exact ⟨[], coversFile_below [] picked⟩
  · obtain ⟨scope, mask, member, begins⟩ := mayCoverBelow_iff.mp beyond
    obtain ⟨finish, ends, described⟩ := Mask.exists_finish_of_mayBegin begins
    obtain ⟨phrase, _, compiled⟩ := mem_part_ofText.mp member
    have within : finish <:+: platform.normalize phrase :=
      ends.isInfix.trans (Phrase.infix_of_mem_compile compiled)
    obtain ⟨original, rfl⟩ := Platform.exists_normalize_of_infix within
    refine ⟨original ++ [platform.separator], ?_⟩
    rw [Platform.normalize_below (.inl rfl)]
    have above : mask.covers .ancestor platform.separator
        (folder ++ platform.separator :: (platform.normalize original ++
          [platform.separator])) := by
      refine Mask.covers_iff.mpr ⟨_, [platform.separator], ?_, described, ?_⟩
      · simp
      · exact Extent.accepts_ancestor.mpr ⟨[], rfl⟩
    exact coversFile_iff.mpr ⟨scope, mask, member, Mask.covers_fileExtent_of_ancestor above⟩

end Selection

namespace Rules

/-- Rules made without anything to hold back have a folder entered exactly when some file below
    it goes through. In particular the hint that something below may match is never given
    where no file could. -/
theorem shouldDescend_iff_passes_below (platform : Platform) (included excluded path : Text)
    (unexcluding : Phrase.compileAll platform excluded = ⟨[], []⟩) :
    (((compile platform included excluded).verdict path).shouldDescend ↔
      ∃ below, (compile platform included excluded).passesFile
        (path ++ platform.separator :: below)) ∧
    (((compile platform included excluded).verdict path).hint = .descendantMayMatch →
      ∃ below, (compile platform included excluded).passesFile
        (path ++ platform.separator :: below)) := by
  have nothingHeld : Selection.ofText platform excluded = .nothing :=
    Selection.ofText_eq_nothing unexcluding
  have promised (enters : ((compile platform included excluded).verdict path).shouldDescend) :
      ∃ below, (compile platform included excluded).passesFile
        (path ++ platform.separator :: below) := by
    simp only [shouldDescend_verdict, compile, nothingHeld, Selection.coversFolder_nothing,
      Bool.not_false, Bool.true_and, Bool.or_eq_true] at enters
    obtain ⟨below, picked⟩ := Selection.exists_coversFile_below enters
    refine ⟨below, ?_⟩
    simp only [passesFile, compile, nothingHeld, Selection.coversFile_nothing, Bool.not_false,
      Bool.true_and]
    rwa [Platform.normalize_below (.inl rfl)]
  refine ⟨⟨promised, ?_⟩, ?_⟩
  · rintro ⟨below, passed⟩
    rw [← Bool.not_eq_false]
    intro pruned
    obtain ⟨held, _⟩ := passes_nothing_below (.inl rfl) pruned below
    exact Bool.false_ne_true (held.symm.trans passed)
  · intro hinted
    apply promised
    cases decided : (compile platform included excluded).verdict path with
    | descend => rfl
    | prune => exact absurd (decided ▸ hinted) (by decide)
    | pass => exact absurd (decided ▸ hinted) (by decide)

/-- Notes that are asked for in folders only: the folder above is entered, in any case of its
    letters, on account of a file that has yet another folder above it. -/
theorem shouldDescend_for_folder_mask :
    let own := compile .windows "Docs/20??/notes*/".toList " ;/\n".toList
    Phrase.compileAll .windows " ;/\n".toList = ⟨[], []⟩ ∧
      (own.verdict "docs".toList).hint = .descendantMayMatch ∧
      ∃ below, own.passesFile ("docs".toList ++ '\\' :: below) := by
  intro own
  have unexcluding : Phrase.compileAll .windows " ;/\n".toList = ⟨[], []⟩ := by decide +kernel
  have hinted : (own.verdict "docs".toList).hint = .descendantMayMatch := by decide +kernel
  obtain ⟨_, kept⟩ := shouldDescend_iff_passes_below .windows "Docs/20??/notes*/".toList
    " ;/\n".toList "docs".toList unexcluding
  exact ⟨unexcluding, hinted, kept hinted⟩

end Rules

end PathSieve
