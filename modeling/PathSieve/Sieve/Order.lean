import PathSieve.Sieve

/-!
# The order of sieves

The sieve that lets everything through comes first, then rules in their own
order, then pairs by their first and then by their second member. The order is
total and transitive and only equal sieves tie, so sieves that count as equal are
equal, sieves can be kept in an `OrderedSet`, and sorting them has one result.
-/

namespace PathSieve.Sieve

/-- A sieve of an earlier kind comes first. -/
theorem order_of_rank_lt {first second : Sieve} (earlier : first.rank < second.rank) :
    first.order second = .lt := by
  cases first <;> cases second <;> first | rfl | exact absurd earlier (by simp [rank])

/-- A sieve ties with itself. -/
@[simp] theorem order_self (sieve : Sieve) : sieve.order sieve = .eq := by
  induction sieve with
  | everything => rfl
  | rules own => exact Std.ReflOrd.compare_self
  | both first second firstHypothesis secondHypothesis =>
    simp [order, firstHypothesis, secondHypothesis]

/-- Sieves that tie are equal. -/
theorem eq_of_order_eq {first second : Sieve} (tie : first.order second = .eq) :
    first = second := by
  induction first generalizing second with
  | everything => cases second <;> first | rfl | exact absurd tie (nofun)
  | rules own =>
    cases second with
    | rules other => exact congrArg rules (Std.LawfulEqOrd.eq_of_compare tie)
    | _ => exact absurd tie (nofun)
  | both left right leftHypothesis rightHypothesis =>
    cases second with
    | both otherLeft otherRight =>
      obtain ⟨lefts, rights⟩ := Ordering.then_eq_eq.mp tie
      rw [leftHypothesis lefts, rightHypothesis rights]
    | _ => exact absurd tie (nofun)

/-- Comparing the other way round gives the opposite answer. -/
theorem order_swap (first second : Sieve) :
    first.order second = (second.order first).swap := by
  induction first generalizing second with
  | everything => cases second <;> rfl
  | rules own =>
    cases second with
    | rules other => exact Std.OrientedOrd.eq_swap
    | _ => rfl
  | both left right leftHypothesis rightHypothesis =>
    cases second with
    | both otherLeft otherRight =>
      simp only [order, leftHypothesis otherLeft, rightHypothesis otherRight,
        Ordering.swap_then]
    | _ => rfl

/-- A pair does not come later exactly when its first member comes first, or ties and its
    second member does not come later. -/
theorem isLE_both {first second otherFirst otherSecond : Sieve} :
    ((both first second).order (both otherFirst otherSecond)).isLE ↔
      first.order otherFirst = .lt ∨ first = otherFirst ∧ (second.order otherSecond).isLE := by
  rw [order]
  cases compared : first.order otherFirst with
  | lt => simp
  | eq => simp [eq_of_order_eq compared]
  | gt =>
    have different : first ≠ otherFirst := by
      rintro rfl
      simp at compared
    simp [different]

/-- Coming first is kept by a step to a sieve that does not come earlier. -/
theorem order_lt_of_isLE {first second third : Sieve} (before : first.order second = .lt)
    (after : (second.order third).isLE) (reaches : (first.order third).isLE) :
    first.order third = .lt := by
  cases compared : first.order third with
  | lt => rfl
  | eq =>
    obtain rfl := eq_of_order_eq compared
    rw [order_swap, before] at after
    exact absurd after (nofun)
  | gt =>
    rw [compared] at reaches
    exact absurd reaches (nofun)

/-- The order is transitive. -/
theorem order_trans {first second third : Sieve} (before : (first.order second).isLE)
    (after : (second.order third).isLE) : (first.order third).isLE := by
  induction first generalizing second third with
  | everything => cases third <;> rfl
  | rules own =>
    cases second with
    | everything => exact absurd before (nofun)
    | rules other =>
      cases third with
      | everything => exact absurd after (nofun)
      | rules last => exact Std.TransOrd.isLE_trans before after
      | both _ _ => rfl
    | both _ _ =>
      cases third with
      | both _ _ => rfl
      | _ => exact absurd after (nofun)
  | both left right leftHypothesis rightHypothesis =>
    cases second with
    | both secondLeft secondRight =>
      cases third with
      | both thirdLeft thirdRight =>
        rw [isLE_both] at before after ⊢
        rcases before with leftBefore | ⟨rfl, rightBefore⟩
        · refine .inl ?_
          have step : (secondLeft.order thirdLeft).isLE := by
            rcases after with leftAfter | ⟨rfl, _⟩
            · simp [leftAfter]
            · simp
          exact order_lt_of_isLE leftBefore step (leftHypothesis (by simp [leftBefore]) step)
        · rcases after with leftAfter | ⟨rfl, rightAfter⟩
          · exact .inl leftAfter
          · exact .inr ⟨rfl, rightHypothesis rightBefore rightAfter⟩
      | _ => exact absurd after (nofun)
    | _ => exact absurd before (nofun)

instance : Std.TransOrd Sieve where
  eq_swap := order_swap _ _
  isLE_trans := order_trans

instance : Std.LawfulEqOrd Sieve where
  compare_self := order_self _
  eq_of_compare := eq_of_order_eq

/-- Sieves count as equal when they are the same sieve and not otherwise. -/
instance : LawfulBEq Sieve where
  rfl := by
    intro sieve
    change (sieve.order sieve == .eq) = true
    rw [order_self]
    rfl
  eq_of_beq := by
    intro first second same
    have tie : (first.order second == .eq) = true := same
    exact eq_of_order_eq (beq_iff_eq.mp tie)

/-- The positions of sieves in a list, from the first in order to the last. Equal sieves
    keep the order of their positions. -/
def ascendingPositions (sieves : List Sieve) : List Nat :=
  (sieves.zipIdx.mergeSort fun first second => (compare first.1 second.1).isLE).map (·.2)

end PathSieve.Sieve
