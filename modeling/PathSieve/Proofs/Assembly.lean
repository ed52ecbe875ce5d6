import PathSieve.Proofs.History
import PathSieve.Proofs.Unrestricted

/-!
# How sieves are put together

Sieves are put together from sieves that are there, from rules and from settings, by combining
them and by adding exclusions. A pair is never known to let everything through, which would be
wrong of a pair of two sieves that are. This module says that no such pair comes about, however
a sieve is put together: `no_unrestricted_member`. What is known of a sieve is thereby what there
is to know of its sources and of the exclusions added to it.

Combining leaves out a member that is known to let everything through, so it makes pairs of
others only. Adding exclusions rewrites the leftmost sieve of nested pairs, and can only bring in
masks: where a member was not known to let everything through, it is not known to afterwards.
-/

namespace PathSieve

namespace Selection

/-- A selection without masks picks nothing, and no other selection does. -/
theorem eq_nothing_iff {selection : Selection} :
    selection = nothing ↔ ∀ scope mask, mask ∉ selection.part scope := by
  have empty (scope : Scope) (mask : Mask) : mask ∉ nothing.part scope := by
    cases scope <;> exact OrderedSet.not_mem_empty
  constructor
  · rintro rfl
    exact empty
  · intro none
    apply eq_of_parts
    intro scope mask
    exact iff_of_false (none scope mask) (empty scope mask)

/-- A list selects nothing exactly when it gives no mask. -/
theorem ofText_eq_nothing_iff {platform : Platform} {text : Text} :
    ofText platform text = nothing ↔ Phrase.compileAll platform text = ⟨[], []⟩ := by
  refine ⟨?_, ofText_eq_nothing⟩
  intro selectsNothing
  have none (scope : Scope) : (Phrase.compileAll platform text).part scope = [] := by
    refine List.eq_nil_iff_forall_not_mem.mpr fun mask member => ?_
    apply eq_nothing_iff.mp selectsNothing scope mask
    rw [ofText, Scoped.part_map]
    exact OrderedSet.mem_ofList.mpr member
  exact congrArg₂ Scoped.mk (none .entry) (none .folder)

/-- Where a list was added nothing is selected only if nothing was before and the list gives no
    mask. -/
theorem insertText_eq_nothing_iff {selection : Selection} {platform : Platform} {text : Text} :
    selection.insertText platform text = nothing ↔
      selection = nothing ∧ Phrase.compileAll platform text = ⟨[], []⟩ := by
  have union := isUnion_insertText selection platform text
  rw [← ofText_eq_nothing_iff, eq_nothing_iff, eq_nothing_iff, eq_nothing_iff]
  simp only [union _ _, not_or, forall_and]

end Selection

namespace Rules

/-- Rules are known to let everything through when everything is let through and nothing is held
    back. -/
theorem isUnrestricted_iff {rules : Rules} :
    rules.isUnrestricted ↔ rules.included = .everything ∧ rules.excluded = .nothing := by
  rw [isUnrestricted_iff_eq]
  constructor
  · intro same
    rw [same]
    exact ⟨rfl, rfl⟩
  · rintro ⟨included, excluded⟩
    exact eq_of_parts included excluded rfl

/-- Rules to which a list of exclusions was added are known to let everything through only if they
    were before and the list gives no mask. -/
theorem isUnrestricted_exclude {rules : Rules} {text : Text} :
    (rules.exclude text).isUnrestricted ↔
      rules.isUnrestricted ∧ Phrase.compileAll rules.platform text = ⟨[], []⟩ := by
  rw [isUnrestricted_iff, isUnrestricted_iff, and_assoc]
  exact and_congr_right fun _ => Selection.insertText_eq_nothing_iff

/-- Rules made of a lone `*` and of exclusions are known to let everything through when the
    exclusions give no mask. -/
theorem isUnrestricted_compile_run {platform : Platform} {text : Text} :
    (compile platform ['*'] text).isUnrestricted ↔
      Phrase.compileAll platform text = ⟨[], []⟩ := by
  rw [isUnrestricted_iff, compile, Selection.ofText_run, Selection.ofText_eq_nothing_iff]
  exact and_iff_right rfl

end Rules

namespace Sieve

/-- Combined sieves are known to let everything through when both are. -/
theorem isUnrestricted_combine {first second : Sieve} :
    (combine first second).isUnrestricted ↔ first.isUnrestricted ∧ second.isUnrestricted := by
  rw [combine]
  split
  · next firstFree =>
    split
    · next secondFree => exact iff_of_true rfl ⟨firstFree, secondFree⟩
    · exact (and_iff_right firstFree).symm
  · next firstLimits =>
    have notBoth : ¬(first.isUnrestricted ∧ second.isUnrestricted) := fun free =>
      firstLimits free.1
    split
    · exact iff_of_false firstLimits notBoth
    · exact iff_of_false Bool.false_ne_true notBoth

/-- A sieve to which exclusions were added is known to let everything through only if it was
    before and the exclusions give no mask in the spelling in which they are read. -/
theorem isUnrestricted_excluding {sieve : Sieve} {platform : Platform} {text : Text} :
    (sieve.excluding platform text).isUnrestricted ↔
      sieve.isUnrestricted ∧
        Phrase.compileAll (sieve.leadingPlatform platform) text = ⟨[], []⟩ := by
  cases sieve with
  | everything => exact Rules.isUnrestricted_compile_run.trans (and_iff_right rfl).symm
  | rules own => exact Rules.isUnrestricted_exclude
  | both first second => exact iff_of_false Bool.false_ne_true fun free => Bool.false_ne_true free.1

/-- Exclusions do not make a sieve one that is known to let everything through. -/
theorem excluding_limits {sieve : Sieve} (limits : sieve.isUnrestricted = false)
    (platform : Platform) (text : Text) :
    (sieve.excluding platform text).isUnrestricted = false := by
  rw [Bool.eq_false_iff] at limits ⊢
  exact fun free => limits (isUnrestricted_excluding.mp free).1

/-- No pair in a sieve, however deep, has a member that is known to let everything through. -/
def IsReduced : Sieve → Prop
  | everything => True
  | rules _ => True
  | both first second =>
    first.isUnrestricted = false ∧ second.isUnrestricted = false ∧
      first.IsReduced ∧ second.IsReduced

namespace IsReduced

variable {first second sieve : Sieve}

/-- Combining two sieves makes no pair with a member that is known to let everything through. -/
theorem combine (firstReduced : first.IsReduced) (secondReduced : second.IsReduced) :
    (combine first second).IsReduced := by
  rw [Sieve.combine]
  split
  · split
    · exact trivial
    · exact secondReduced
  · next firstLimits =>
    split
    · exact firstReduced
    · next kept =>
      obtain ⟨secondLimits, _⟩ := Bool.or_eq_false_iff.mp (Bool.eq_false_iff.mpr kept)
      exact ⟨Bool.eq_false_iff.mpr firstLimits, secondLimits, firstReduced, secondReduced⟩

/-- Adding exclusions makes no member of a pair one that is known to let everything through. -/
theorem excluding (reduced : sieve.IsReduced) (platform : Platform) (text : Text) :
    (sieve.excluding platform text).IsReduced := by
  induction sieve with
  | everything => exact trivial
  | rules own => exact trivial
  | both first second firstHypothesis _ =>
    obtain ⟨firstLimits, secondLimits, firstReduced, secondReduced⟩ := reduced
    exact ⟨excluding_limits firstLimits platform text, secondLimits,
      firstHypothesis firstReduced, secondReduced⟩

end IsReduced

end Sieve

/-- A way to put a sieve together: from what is there, by combining, and by adding exclusions,
    for which a platform is named in case there are no rules that they could join. -/
inductive Assembly where
  | everything
  | rules (own : Rules)
  | settings (given : Settings) (platform : Platform)
  | combine (first second : Assembly)
  | excluding (earlier : Assembly) (platform : Platform) (text : Text)

namespace Assembly

/-- The sieve that is put together. -/
def sieve : Assembly → Sieve
  | everything => .everything
  | rules own => .rules own
  | settings given platform => given.toSieve platform
  | combine first second => .combine first.sieve second.sieve
  | excluding earlier platform text => earlier.sieve.excluding platform text

/-- The sieves that it is put together from, from left to right. -/
def sources : Assembly → List Sieve
  | everything => [.everything]
  | rules own => [.rules own]
  | settings given platform => [given.toSieve platform]
  | combine first second => first.sources ++ second.sources
  | excluding earlier _ _ => earlier.sources

/-- The exclusions that are added on the way, each with the platform in whose spelling it is read
    at its time. -/
def additions : Assembly → List (Platform × Text)
  | combine first second => first.additions ++ second.additions
  | excluding earlier platform text =>
    earlier.additions ++ [(earlier.sieve.leadingPlatform platform, text)]
  | _ => []

/-- Whatever is combined and whatever is excluded on the way, no pair with a member that is known
    to let everything through comes about. -/
theorem isReduced_sieve (assembly : Assembly) : assembly.sieve.IsReduced := by
  induction assembly with
  | everything => exact trivial
  | rules own => exact trivial
  | settings given platform =>
    rcases given.toSieve_cases platform with ⟨short, _⟩ | compiled
    · rw [sieve, short]
      exact trivial
    · rw [sieve, compiled]
      exact trivial
  | combine first second firstHypothesis secondHypothesis =>
    exact firstHypothesis.combine secondHypothesis
  | excluding earlier platform text inductionHypothesis =>
    exact inductionHypothesis.excluding platform text

/-- What is put together is known to let everything through when all its sources are and no
    exclusions on the way give a mask. -/
theorem isUnrestricted_sieve_iff (assembly : Assembly) :
    assembly.sieve.isUnrestricted ↔
      (∀ source ∈ assembly.sources, source.isUnrestricted) ∧
        ∀ addition ∈ assembly.additions, Phrase.compileAll addition.1 addition.2 = ⟨[], []⟩ := by
  induction assembly with
  | everything => simp [sieve, sources, additions]
  | rules own => simp [sieve, sources, additions]
  | settings given platform => simp [sieve, sources, additions]
  | combine first second firstHypothesis secondHypothesis =>
    rw [sieve, Sieve.isUnrestricted_combine, firstHypothesis, secondHypothesis, sources, additions]
    simp only [List.forall_mem_append]
    exact and_and_and_comm
  | excluding earlier platform text inductionHypothesis =>
    rw [sieve, Sieve.isUnrestricted_excluding, inductionHypothesis, sources, additions, and_assoc]
    simp only [List.forall_mem_append, List.forall_mem_singleton]

/-- However a sieve is put together, no pair in it has a member that is known to let everything
    through. So the sieve is known to let everything through exactly when all its sources are and
    no exclusion that was added to it gave a mask. -/
theorem no_unrestricted_member (assembly : Assembly) :
    assembly.sieve.IsReduced ∧
      (assembly.sieve.isUnrestricted ↔
        (∀ source ∈ assembly.sources, source.isUnrestricted) ∧
          ∀ addition ∈ assembly.additions,
            Phrase.compileAll addition.1 addition.2 = ⟨[], []⟩) :=
  ⟨assembly.isReduced_sieve, assembly.isUnrestricted_sieve_iff⟩

end Assembly

end PathSieve
