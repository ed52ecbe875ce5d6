import PathSieve.Proofs.Anchoring

/-!
# Phrases that mean the same

There is more than one way to write a phrase. A phrase for any depth stands for two anchored
ones, a folder may be marked by a separator or by a separator and a `*`, and a phrase that does
not begin with a mark of its own may as well be anchored. This module says when two ways come to
the same masks, in the same order, and which phrases come to no mask at all:
`compile_of_equivalent_spellings`.

The marks at the two ends of a phrase are read one after the other, those at its beginning first
(`anchorings_append`). They get into each other's way only in phrases that are too short for both,
and these are the exceptions in the statements.
-/

namespace PathSieve.Phrase

variable {platform : Platform} {separator : Char} {phrase : Text}

/-- Which anchored phrases a phrase stands for is decided at its beginning. With whatever the
    phrase is gone on, each of them is gone on with too. A lone `*` is no beginning yet: a
    separator behind it would make one. -/
theorem anchorings_append (separatorNotRun : separator ≠ '*') (nonempty : phrase ≠ [])
    (notRun : phrase ≠ ['*']) (finish : Text) :
    anchorings separator (phrase ++ finish) =
      (anchorings separator phrase).map (· ++ finish) := by
  by_cases anchored : ∃ rest, phrase = separator :: rest
  · obtain ⟨rest, rfl⟩ := anchored
    rw [List.cons_append, anchorings_separator_cons, anchorings_separator_cons, List.map_singleton]
  by_cases anyDepth : ∃ rest, phrase = '*' :: separator :: rest
  · obtain ⟨rest, rfl⟩ := anyDepth
    rw [List.cons_append, List.cons_append, anchorings_run_separator_cons separatorNotRun,
      anchorings_run_separator_cons separatorNotRun]
    rfl
  rw [not_exists] at anchored anyDepth
  have stillRelative (rest : Text) : phrase ++ finish ≠ separator :: rest := by
    cases phrase with
    | nil => exact absurd rfl nonempty
    | cons first others =>
      intro begins
      exact anchored others (congrArg (· :: others) (List.cons.inj begins).1)
  have stillNotAnyDepth (rest : Text) : phrase ++ finish ≠ '*' :: separator :: rest := by
    rcases phrase with _ | ⟨first, _ | ⟨second, others⟩⟩
    · exact absurd rfl nonempty
    · intro begins
      exact notRun (congrArg (fun start => [start]) (List.cons.inj begins).1)
    · intro begins
      obtain ⟨rfl, behind⟩ := List.cons.inj begins
      obtain ⟨rfl, _⟩ := List.cons.inj behind
      exact anyDepth others rfl
  rw [anchorings_of_relative anchored anyDepth,
    anchorings_of_relative stillRelative stillNotAnyDepth, List.map_singleton]

/-- The two folder marks say the same. -/
theorem place_run_mark (notRun : separator ≠ '*') (name : Text) :
    place separator (name ++ [separator, '*']) = place separator (name ++ [separator]) := by
  rw [place_of_isMarked notRun (.inr rfl), place_of_isMarked notRun (.inl rfl)]

/-- A phrase bears its folder mark behind one name only. -/
theorem IsMarked.unique {first second : Text} (notRun : separator ≠ '*')
    (marked : IsMarked separator phrase first) (other : IsMarked separator phrase second) :
    first = second := by
  have found := (beforeFolderMark?_eq_some_iff notRun).mpr marked
  exact Option.some.inj (found.symm.trans ((beforeFolderMark?_eq_some_iff notRun).mpr other))

/-- An anchored phrase gives no mask exactly when there is nothing in it but a folder mark or
    not even that. -/
theorem place_eq_nothing_iff (notRun : separator ≠ '*') :
    place separator phrase = ⟨[], []⟩ ↔ phrase = [] ∨ IsMarked separator phrase [] := by
  by_cases marked : ∃ name, IsMarked separator phrase name
  · obtain ⟨name, mark⟩ := marked
    have markedAlone : IsMarked separator phrase [] ↔ name = [] :=
      ⟨mark.unique notRun, fun empty => empty ▸ mark⟩
    have nonempty : phrase ≠ [] := by
      rintro rfl
      simp [IsMarked] at mark
    rw [place_of_isMarked notRun mark, markedAlone]
    cases name <;> simp [unlessEmpty, nonempty]
  · have unmarked : ∀ name, ¬ IsMarked separator phrase name := not_exists.mp marked
    rw [place_of_not_isMarked notRun unmarked]
    cases phrase <;> simp [unlessEmpty, unmarked]

/-- The masks of a phrase for any depth are those of two anchored phrases, one after the other. -/
theorem part_compile_anyDepth (platform : Platform) (rest : Text) (scope : Scope) :
    (compile platform ('*' :: platform.separator :: rest)).part scope =
      (compile platform (platform.separator :: '*' :: platform.separator :: rest)).part scope ++
        (compile platform (platform.separator :: rest)).part scope := by
  rw [compile_anyDepth, compile_anchored, compile_anchored, Platform.normalize_run_cons,
    Platform.normalize_separator_cons, Scoped.part_flatMap, List.flatMap_cons,
    List.flatMap_singleton]

/-- Of a phrase with one folder mark and the same phrase with the other the masks are the same:
    both are anchored alike, and then the mark is taken off. -/
theorem compile_run_mark (nonempty : phrase ≠ []) (notRun : phrase ≠ ['*']) :
    compile platform (phrase ++ [platform.separator, '*']) =
      compile platform (phrase ++ [platform.separator]) := by
  have nonemptySpelled : platform.normalize phrase ≠ [] := List.map_eq_nil_iff.not.mpr nonempty
  have notRunSpelled : platform.normalize phrase ≠ ['*'] :=
    Platform.normalize_eq_run_iff.not.mpr notRun
  have plainMark : platform.normalize [platform.separator] = [platform.separator] :=
    platform.normalize_separator_cons []
  have runMark : platform.normalize [platform.separator, '*'] = [platform.separator, '*'] := by
    rw [Platform.normalize_separator_cons, Platform.normalize_run_cons]
    rfl
  have anchored (mark : Text) : anchorings platform.separator (platform.normalize phrase ++ mark) =
      (anchorings platform.separator (platform.normalize phrase)).map (· ++ mark) :=
    anchorings_append platform.separator_ne_run nonemptySpelled notRunSpelled mark
  simp only [compile, Platform.normalize_append, plainMark, runMark, anchored, Scoped.flatMap,
    List.flatMap_map, place_run_mark platform.separator_ne_run]

/-- A phrase without a mark at its beginning is anchored by itself. -/
theorem compile_separator_cons
    (relative : ¬ [platform.separator] <+: platform.normalize phrase)
    (notAnyDepth : ¬ ['*', platform.separator] <+: platform.normalize phrase) :
    compile platform (platform.separator :: phrase) = compile platform phrase := by
  have alone : anchorings platform.separator (platform.normalize phrase) =
      [platform.normalize phrase] :=
    anchorings_of_relative (fun rest begins => relative ⟨rest, begins.symm⟩)
      (fun rest begins => notAnyDepth ⟨rest, begins.symm⟩)
  rw [compile_anchored, compile, alone]
  simp [Scoped.flatMap]

/-- A phrase gives no mask exactly when none of the anchored phrases does that it stands for. -/
theorem compile_eq_nothing_iff_anchorings :
    compile platform phrase = ⟨[], []⟩ ↔
      ∀ anchored ∈ anchorings platform.separator (platform.normalize phrase),
        place platform.separator anchored = ⟨[], []⟩ := by
  have parts (masks : Scoped (List Mask)) :
      masks = ⟨[], []⟩ ↔ masks.entry = [] ∧ masks.folder = [] := by
    cases masks
    rw [Scoped.mk.injEq]
  simp only [compile, Scoped.flatMap, parts, List.flatMap_eq_nil_iff, ← forall_and]

/-- A phrase gives no mask exactly when it is spelled as nothing, as one separator or as two, or
    as two separators and a `*`. -/
theorem compile_eq_nothing_iff :
    compile platform phrase = ⟨[], []⟩ ↔
      platform.normalize phrase = [] ∨ platform.normalize phrase = [platform.separator] ∨
        platform.normalize phrase = [platform.separator, platform.separator] ∨
        platform.normalize phrase = [platform.separator, platform.separator, '*'] := by
  rw [compile_eq_nothing_iff_anchorings]
  generalize platform.normalize phrase = spelled
  by_cases anchored : ∃ rest, spelled = platform.separator :: rest
  · obtain ⟨rest, rfl⟩ := anchored
    rw [anchorings_separator_cons]
    simp [place_eq_nothing_iff platform.separator_ne_run, IsMarked]
  · have relative : ∀ rest, spelled ≠ platform.separator :: rest := not_exists.mp anchored
    -- Such a phrase is one of its own anchorings, and a folder mark alone would begin otherwise.
    simp only [relative, or_false]
    constructor
    · intro none
      rcases (place_eq_nothing_iff platform.separator_ne_run).mp
        (none spelled (mem_anchorings_self relative)) with empty | plain | withRun
      · exact empty
      · exact absurd plain (relative [])
      · exact absurd withRun (relative ['*'])
    · rintro rfl anchoring member
      obtain rfl := List.mem_singleton.mp member
      exact (place_eq_nothing_iff platform.separator_ne_run).mpr (.inl rfl)

/-- The ways of writing a phrase that come to the same. A phrase for any depth gives, for either
    scope, the masks of the phrase anchored as it stands and behind these the masks of what it is
    anchored to at the root. A phrase that ends with the separator gives the masks that it gives
    with a further `*`, unless there is nothing before the separator or a lone `*`. A phrase that
    is spelled with neither the separator nor a `*` and the separator at its beginning gives the
    masks that it gives when it is anchored. And a phrase gives no mask in four cases only, when
    it is spelled as at most two separators or as two separators and a `*`. -/
theorem compile_of_equivalent_spellings (platform : Platform) :
    (∀ rest scope, (compile platform ('*' :: platform.separator :: rest)).part scope =
        (compile platform (platform.separator :: '*' :: platform.separator :: rest)).part scope ++
          (compile platform (platform.separator :: rest)).part scope) ∧
      (∀ phrase, phrase ≠ [] → phrase ≠ ['*'] →
        compile platform (phrase ++ [platform.separator]) =
          compile platform (phrase ++ [platform.separator, '*'])) ∧
      (∀ phrase, ¬ [platform.separator] <+: platform.normalize phrase →
        ¬ ['*', platform.separator] <+: platform.normalize phrase →
          compile platform (platform.separator :: phrase) = compile platform phrase) ∧
      ∀ phrase, compile platform phrase = ⟨[], []⟩ ↔
        platform.normalize phrase = [] ∨ platform.normalize phrase = [platform.separator] ∨
          platform.normalize phrase = [platform.separator, platform.separator] ∨
          platform.normalize phrase = [platform.separator, platform.separator, '*'] :=
  ⟨part_compile_anyDepth platform, fun _ nonempty notRun => (compile_run_mark nonempty notRun).symm,
    fun _ => compile_separator_cons, fun _ => compile_eq_nothing_iff⟩

/-- Folders of logs at any depth, by either folder mark, and whatever is called like them, anchored
    or not. Of a lone `*` the two folder marks do not come to the same: the second one leaves a
    `*` behind the separator, which stands for everything. -/
theorem compile_of_log_spellings :
    let folder := "*/Logs".toList
    let name := "Logs*".toList
    folder ≠ [] ∧ folder ≠ ['*'] ∧
      compile .windows (folder ++ ['\\']) = compile .windows (folder ++ ['\\', '*']) ∧
      compile .windows (folder ++ ['\\']) = ⟨[], ["*\\LOGS".toList, "LOGS".toList]⟩ ∧
      ¬ ['\\'] <+: Platform.windows.normalize name ∧
      ¬ ['*', '\\'] <+: Platform.windows.normalize name ∧
      compile .windows ('\\' :: name) = compile .windows name ∧
      compile .windows ['*', '\\'] ≠ compile .windows ['*', '\\', '*'] := by
  intro folder name
  have nonempty : folder ≠ [] := by decide
  have notRun : folder ≠ ['*'] := by decide
  have relative : ¬ ['\\'] <+: Platform.windows.normalize name := by decide +kernel
  have notAnyDepth : ¬ ['*', '\\'] <+: Platform.windows.normalize name := by decide +kernel
  obtain ⟨_, marks, anchors, _⟩ := compile_of_equivalent_spellings .windows
  exact ⟨nonempty, notRun, marks folder nonempty notRun, by decide +kernel, relative, notAnyDepth,
    anchors name relative notAnyDepth, by decide +kernel⟩

end PathSieve.Phrase
