import PathSieve.Proofs.Meet
import PathSieve.Sieve.Trace

/-!
# Which rules a sieve asks

A sieve asks its rules one after the other, from left to right, and stops as soon as the answer is
settled. What settles it depends on the question: rules that hold a file or a folder back, or,
where a hint is wanted, rules that prune the folder. `events_of_consultation` says that the trace
shows just this, whatever the grouping of the rules: one event for each of the rules up to the
first that settle the answer, and nothing else.

A pair goes on with its second member by the answer of the first, which is the answer of many
rules. It comes to the same, since the answer of the first member settles the matter exactly when
one of its rules does. With that, all three questions follow their rules in the same way
(`events_eq_of_pairs`).
-/

namespace PathSieve

/-- The items up to the first that settles a matter, with that one, or all if none does. -/
def upToFirst {α : Type} (settles : α → Bool) : List α → List α
  | [] => []
  | item :: rest => item :: if settles item then [] else upToFirst settles rest

/-- Items behind others are reached if none of the others settles the matter. -/
theorem upToFirst_append {α : Type} {settles : α → Bool} (first second : List α) :
    upToFirst settles (first ++ second) =
      upToFirst settles first ++ if first.any settles then [] else upToFirst settles second := by
  induction first with
  | nil => rfl
  | cons item rest inductionHypothesis =>
    cases settled : settles item with
    | true => simp [upToFirst, settled]
    | false => simp [upToFirst, settled, inductionHypothesis]

/-- Where a refusal settles the matter, the last answer is that of all items together. -/
theorem getLast?_map_upToFirst {α β : Type} (answer : α → Bool) (report : Bool → β)
    {items : List α} (nonempty : items ≠ []) :
    ((upToFirst (fun item => !answer item) items).map fun item => report (answer item)).getLast? =
      some (report (items.all answer)) := by
  induction items with
  | nil => exact absurd rfl nonempty
  | cons item rest inductionHypothesis =>
    cases answered : answer item with
    | false => simp [upToFirst, answered]
    | true =>
      cases rest with
      | nil => simp [upToFirst, answered]
      | cons next others =>
        have later := inductionHypothesis (List.cons_ne_nil next others)
        rw [upToFirst, answered, List.map_cons, List.getLast?_cons]
        simp [later, answered]

/-- The least of some verdicts prunes a folder exactly when one of them does. -/
theorem Verdict.least_eq_prune_iff {verdicts : List Verdict} :
    least verdicts = prune ↔ prune ∈ verdicts := by
  constructor
  · intro pruned
    have attained := least_eq_pass_or_mem verdicts
    rw [pruned] at attained
    exact attained.resolve_left (by decide)
  · intro member
    have below : least verdicts ≤ prune := le_least_iff.mp (Nat.le_refl _) prune member
    exact le_antisymm below (Nat.zero_le _)

/-- The hint that nothing below can go through is that of pruning. -/
theorem Rules.hint_eq_noDescendantMatch_iff {rules : Rules} {path : Text} :
    (rules.decision path).hint = .noDescendantMatch ↔ rules.verdict path = .prune := by
  rw [← decision_verdict]
  cases rules.verdict path <;> decide

namespace Sieve

/-- A folder is pruned exactly when some of the rules prune it. -/
theorem verdict_eq_prune_iff {sieve : Sieve} {path : Text} :
    sieve.verdict path = .prune ↔ ∃ own ∈ sieve.members, own.verdict path = .prune := by
  rw [verdict_eq_least, Verdict.least_eq_prune_iff, List.mem_map]

/-- Events that come from the rules alone, and from the second member of a pair only if no rules
    of the first settle the answer, are those of the rules up to the first that settle it. -/
theorem events_eq_of_pairs (events : Sieve → List Event) {settles : Rules → Bool}
    {report : Rules → Event} (nothing : events everything = [])
    (single : ∀ own, events (rules own) = [report own])
    (pair : ∀ first second, events (both first second) =
      events first ++ if first.members.any settles then [] else events second)
    (sieve : Sieve) : events sieve = (upToFirst settles sieve.members).map report := by
  induction sieve with
  | everything => exact nothing
  | rules own => simp [single, members, upToFirst]
  | both first second firstHypothesis secondHypothesis =>
    rw [pair, firstHypothesis, secondHypothesis, members, upToFirst_append, List.map_append]
    split <;> rfl

/-- The events of judging a file are those of the rules up to the first that hold it back. -/
theorem events_passesFileTraced (sieve : Sieve) (path : Text) :
    (sieve.passesFileTraced path).events =
      (upToFirst (fun own => !own.passesFile path) sieve.members).map
        fun own => .fileJudged path (own.passesFile path) := by
  refine events_eq_of_pairs (fun sieve => (sieve.passesFileTraced path).events)
    rfl (fun _ => rfl) ?_ sieve
  intro first second
  have settled : (first.members.any fun own => !own.passesFile path) = !first.passesFile path := by
    rw [passesFile_eq_all, List.not_all_eq_any_not]
  rw [passesFileTraced, Traced.events_bind, value_passesFileTraced, settled]
  cases first.passesFile path <;> rfl

/-- The events of judging a folder without a hint are those of the rules up to the first that
    hold it back. -/
theorem events_passesFolderTraced (sieve : Sieve) (path : Text) :
    (sieve.passesFolderTraced path).events =
      (upToFirst (fun own => !own.passesFolder path) sieve.members).map
        fun own => .folderJudged path (own.passesFolder path) none := by
  refine events_eq_of_pairs (fun sieve => (sieve.passesFolderTraced path).events)
    rfl (fun _ => rfl) ?_ sieve
  intro first second
  have settled : (first.members.any fun own => !own.passesFolder path) =
      !first.passesFolder path := by
    rw [passesFolder_eq_all, List.not_all_eq_any_not]
  rw [passesFolderTraced, Traced.events_bind, value_passesFolderTraced, settled]
  cases first.passesFolder path <;> rfl

/-- The events of judging a folder with a hint are those of the rules up to the first whose hint
    is that nothing below can go through. That rules merely hold the folder back settles nothing. -/
theorem events_decisionTraced (sieve : Sieve) (path : Text) :
    (sieve.decisionTraced path).events =
      (upToFirst (fun own => (own.decision path).hint = .noDescendantMatch) sieve.members).map
        fun own =>
          .folderJudged path (own.decision path).passed (some (own.decision path).hint) := by
  refine events_eq_of_pairs (fun sieve => (sieve.decisionTraced path).events)
    rfl (fun _ => rfl) ?_ sieve
  intro first second
  have settled : (first.members.any fun own => (own.decision path).hint = .noDescendantMatch) =
      decide (first.verdict path = .prune) := by
    rw [Bool.eq_iff_iff, List.any_eq_true, decide_eq_true_iff, verdict_eq_prune_iff]
    simp only [decide_eq_true_iff, Rules.hint_eq_noDescendantMatch_iff]
  rw [decisionTraced, Traced.events_bind, value_decisionTraced, settled, ← decision_verdict]
  cases first.verdict path with
  | prune => rfl
  | descend => simp [Verdict.decision, Decision.reject]
  | pass => simp [Verdict.decision, Decision.pass]

/-- The trace shows which rules a sieve asks, from left to right. A file is put to the rules up to
    the first that hold it back, or to all of them, a folder without a hint likewise, and a folder
    with a hint to the rules up to the first whose hint is that nothing below can go through. Each
    of the rules asked leaves one event, with the path as it was given and their own answer, and
    nothing else does. For a file, and for a folder without a hint, the answer of the sieve is the
    one of the last event, or that it goes through if there are no rules. -/
theorem events_of_consultation (sieve : Sieve) (path : Text) :
    ((sieve.passesFileTraced path).events =
        (upToFirst (fun own => !own.passesFile path) sieve.members).map
          fun own => .fileJudged path (own.passesFile path)) ∧
      ((sieve.passesFolderTraced path).events =
        (upToFirst (fun own => !own.passesFolder path) sieve.members).map
          fun own => .folderJudged path (own.passesFolder path) none) ∧
      ((sieve.decisionTraced path).events =
        (upToFirst (fun own => (own.decision path).hint = .noDescendantMatch) sieve.members).map
          fun own =>
            .folderJudged path (own.decision path).passed (some (own.decision path).hint)) ∧
      (sieve.members = [] ∧ (sieve.passesFileTraced path).value = true ∨
        (sieve.passesFileTraced path).events.getLast? =
          some (.fileJudged path (sieve.passesFileTraced path).value)) ∧
      (sieve.members = [] ∧ (sieve.passesFolderTraced path).value = true ∨
        (sieve.passesFolderTraced path).events.getLast? =
          some (.folderJudged path (sieve.passesFolderTraced path).value none)) := by
  refine ⟨events_passesFileTraced sieve path, events_passesFolderTraced sieve path,
    events_decisionTraced sieve path, ?_, ?_⟩
  · rw [value_passesFileTraced, passesFile_eq_all, events_passesFileTraced]
    by_cases empty : sieve.members = []
    · exact .inl ⟨empty, empty ▸ rfl⟩
    · exact .inr (getLast?_map_upToFirst (·.passesFile path) (Event.fileJudged path) empty)
  · rw [value_passesFolderTraced, passesFolder_eq_all, events_passesFolderTraced]
    by_cases empty : sieve.members = []
    · exact .inl ⟨empty, empty ▸ rfl⟩
    · exact .inr (getLast?_map_upToFirst (·.passesFolder path)
        (Event.folderJudged path · none) empty)

/-- The folder of the sources does not go through by the rules asked first, and without a hint no
    others are asked. With a hint the second rules are, as there may be sources below, and they
    prune it; the third are not asked either way. -/
example :
    let sources := rules (.compile .posix "src/*.rs".toList [])
    let lasting := rules (.compile .posix ['*'] "src".toList)
    let sieve := both (both sources lasting) sources
    (sieve.passesFolderTraced "src".toList).events = [.folderJudged "src".toList false none] ∧
      (sieve.decisionTraced "src".toList).events =
        [.folderJudged "src".toList false (some .descendantMayMatch),
          .folderJudged "src".toList false (some .noDescendantMatch)] := by
  decide +kernel

end Sieve

end PathSieve
