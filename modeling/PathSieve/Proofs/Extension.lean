import PathSieve.Proofs.Assembly

/-!
# Exclusions before and after combining

Exclusions that are added to a pair go to its first member. So it should make no difference
whether they are added to combined sieves or to the first of two sieves before these are
combined. To what a sieve answers it makes none, but the sieve may be another one.
`excluding_combine_eq_iff` says when it is the same: as long as the first sieve with the
exclusions is not equal to the second. Where it is, combining the two afterwards keeps one of
them, whereas exclusions that are added to a pair leave it a pair, of two equal members then.
-/

namespace PathSieve.Sieve

variable {first second : Sieve}

/-- Two sieves of which neither is known to let everything through are combined to a pair unless
    they are equal. -/
theorem combine_of_limits (firstLimits : first.isUnrestricted = false)
    (secondLimits : second.isUnrestricted = false) :
    combine first second = if first = second then first else both first second := by
  simp [combine, firstLimits, secondLimits]

/-- No pair is one of its own members. -/
theorem both_ne_second (first second : Sieve) : both first second ≠ second := by
  intro same
  have larger := congrArg sizeOf same
  simp at larger

/-- Exclusions added to two combined sieves, which are different and neither of which is known to
    let everything through, give the sieve that combining gives when they are added to the first
    before, unless the first with the exclusions is equal to the second. In either case the two
    sieves answer alike. -/
theorem excluding_combine_eq_iff (firstLimits : first.isUnrestricted = false)
    (secondLimits : second.isUnrestricted = false) (different : first ≠ second)
    (platform : Platform) (text : Text) :
    ((combine first second).excluding platform text =
        combine (first.excluding platform text) second ↔
      first.excluding platform text ≠ second) ∧
    ((combine first second).excluding platform text).Agrees
      (combine (first.excluding platform text) second) := by
  have after : (combine first second).excluding platform text =
      both (first.excluding platform text) second := by
    rw [combine_of_limits firstLimits secondLimits, if_neg different, excluding]
  have before := combine_of_limits (excluding_limits firstLimits platform text) secondLimits
  rw [after, before]
  by_cases equal : first.excluding platform text = second
  · rw [if_pos equal, equal]
    exact ⟨iff_of_false (both_ne_second second second) (not_not_intro rfl),
      both_self_agrees second⟩
  · rw [if_neg equal]
    exact ⟨iff_of_true rfl equal, .refl _⟩

/-- Sieves that hold back one file each. A third file that is held back later, and in the spelling
    of the first, may as well be held back by the first from the start. -/
theorem excluding_combine_of_three_files :
    let first := rules (.compile .posix ['*'] "a".toList)
    let second := rules (.compile .posix ['*'] "b".toList)
    first.isUnrestricted = false ∧ second.isUnrestricted = false ∧ first ≠ second ∧
      first.excluding .windows "c".toList ≠ second ∧
      (combine first second).excluding .windows "c".toList =
        combine (rules (.compile .posix ['*'] "a;c".toList)) second := by
  intro first second
  have firstLimits : first.isUnrestricted = false := by decide +kernel
  have secondLimits : second.isUnrestricted = false := by decide +kernel
  have different : first ≠ second := by decide +kernel
  have apart : first.excluding .windows "c".toList ≠ second := by decide +kernel
  have extended : first.excluding .windows "c".toList =
      rules (.compile .posix ['*'] "a;c".toList) := by decide +kernel
  have same := (excluding_combine_eq_iff firstLimits secondLimits different .windows
    "c".toList).1.mpr apart
  exact ⟨firstLimits, secondLimits, different, apart, same.trans (by rw [extended])⟩

/-- Two files that the second sieve holds back, the first of which the first sieve holds back too.
    When the other one is added to the pair, both members are the same sieve; when it is added
    before, combining keeps that sieve alone. -/
theorem excluding_combine_keeps_repetition :
    let first := rules (.compile .posix ['*'] "a".toList)
    let second := rules (.compile .posix ['*'] "a;b".toList)
    first.isUnrestricted = false ∧ second.isUnrestricted = false ∧ first ≠ second ∧
      (combine first second).excluding .posix "b".toList = both second second ∧
      combine (first.excluding .posix "b".toList) second = second ∧
      (combine first second).excluding .posix "b".toList ≠
        combine (first.excluding .posix "b".toList) second := by
  decide +kernel

end PathSieve.Sieve
