import PathSieve.Proofs.Admission
import PathSieve.Proofs.Anchoring

/-!
# Phrases for any depth

A phrase that begins with a `*` and the separator is meant at any depth. It is compiled twice,
as it stands and once more without that beginning, and this module says that the two together
do what is meant: `excluding_at_any_depth` says that the phrase holds back a path exactly when
the anchored phrase behind it holds back the path or what follows one of its separators.

The `*` can take any run of characters, but behind it the separator has to be found, so it
stops only in front of one (`covers_run_separator`). The two candidates bear the same folder
mark, with a single exception: a lone `*` behind the separator makes a folder mark of the
first and none of the second. There the second picks every path, and so does the anchored
phrase.
-/

namespace PathSieve

/-- A mask behind a `*` and the separator describes what the mask by itself describes behind
    one of the separators of a path. -/
theorem Mask.covers_run_separator {mask : Mask} {extent : Extent} {separator : Char} {path : Text}
    (notRun : separator ≠ '*') (notSingle : separator ≠ '?') :
    Mask.covers ('*' :: separator :: mask) extent separator path ↔
      ∃ before below, path = before ++ separator :: below ∧
        mask.covers extent separator below := by
  simp only [covers_cons_run, covers_cons_of_ne notRun, notSingle, false_or]
  constructor
  · rintro ⟨_, ⟨before, rfl⟩, _, below, rfl, rfl, covered⟩
    exact ⟨before, below, rfl, covered⟩
  · rintro ⟨before, below, rfl, covered⟩
    exact ⟨separator :: below, List.suffix_append .., separator, below, rfl, rfl, covered⟩

namespace Phrase

variable {separator : Char} {rest name : Text}

/-- A folder mark of what follows a `*` and the separator is one of the whole phrase. -/
theorem IsMarked.anyDepth (marked : IsMarked separator rest name) :
    IsMarked separator ('*' :: separator :: rest) ('*' :: separator :: name) := by
  rcases marked with rfl | rfl
  · exact .inl rfl
  · exact .inr rfl

/-- The other way round a folder mark of the whole phrase is one of what follows, unless that
    is too short for it: empty, or a lone `*`. -/
theorem exists_isMarked_of_anyDepth (nonempty : rest ≠ []) (notRun : rest ≠ ['*'])
    (marked : IsMarked separator ('*' :: separator :: rest) name) :
    ∃ folder, IsMarked separator rest folder := by
  rcases marked with ends | ends
  · have mark : [separator] <:+ '*' :: separator :: rest := ⟨name, ends.symm⟩
    simp only [List.suffix_cons_iff, List.cons.injEq, nonempty.symm, List.nil_eq,
      reduceCtorEq, and_false, false_or] at mark
    obtain ⟨folder, split⟩ := mark
    exact ⟨folder, .inl split.symm⟩
  · have mark : [separator, '*'] <:+ '*' :: separator :: rest := ⟨name, ends.symm⟩
    simp only [List.suffix_cons_iff, List.cons.injEq, nonempty.symm, notRun.symm,
      and_false, false_or] at mark
    obtain ⟨folder, split⟩ := mark
    exact ⟨folder, .inr split.symm⟩

/-- With the exception of a lone `*` an anchored phrase and the same behind a `*` and the
    separator give their masks for the same scope. -/
theorem part_place_anyDepth (separatorNotRun : separator ≠ '*')
    (given : place separator rest ≠ ⟨[], []⟩) (notRun : rest ≠ ['*']) (scope : Scope) :
    (place separator ('*' :: separator :: rest)).part scope =
      ((place separator rest).part scope).map fun mask => '*' :: separator :: mask := by
  by_cases marked : ∃ name, IsMarked separator rest name
  · obtain ⟨name, marked⟩ := marked
    have named : name ≠ [] := by
      rintro rfl
      exact given (place_of_isMarked separatorNotRun marked)
    rw [place_of_isMarked separatorNotRun marked, place_of_isMarked separatorNotRun marked.anyDepth]
    cases scope <;> simp [Scoped.part, unlessEmpty, named]
  · have unmarked : ∀ name, ¬ IsMarked separator rest name := not_exists.mp marked
    have nonempty : rest ≠ [] := by
      rintro rfl
      exact given (place_of_not_isMarked separatorNotRun unmarked)
    have unmarkedBehind : ∀ name, ¬ IsMarked separator ('*' :: separator :: rest) name :=
      fun _ mark => marked (exists_isMarked_of_anyDepth nonempty notRun mark)
    rw [place_of_not_isMarked separatorNotRun unmarked,
      place_of_not_isMarked separatorNotRun unmarkedBehind]
    cases scope <;> simp [Scoped.part, unlessEmpty, nonempty]

/-- With the same exception the masks of a phrase for any depth are those of the anchored
    phrase, by themselves and behind a `*` and the separator. -/
theorem mem_part_compile_anyDepth {platform : Platform} {rest : Text} {scope : Scope}
    {mask : Mask} (given : compile platform (platform.separator :: rest) ≠ ⟨[], []⟩)
    (notRun : platform.normalize rest ≠ ['*']) :
    mask ∈ (compile platform ('*' :: platform.separator :: rest)).part scope ↔
      (∃ anchored ∈ (compile platform (platform.separator :: rest)).part scope,
        mask = '*' :: platform.separator :: anchored) ∨
      mask ∈ (compile platform (platform.separator :: rest)).part scope := by
  rw [compile_anchored] at given ⊢
  rw [compile_anyDepth, Scoped.part_flatMap, List.flatMap_cons, List.flatMap_singleton,
    part_place_anyDepth platform.separator_ne_run given notRun, List.mem_append, List.mem_map]
  simp only [eq_comm]

/-- In the exceptional case both phrases give a lone `*` for entries of any kind: the anchored
    phrase as it stands, the other one behind its `*` and the separator. -/
theorem run_mem_part_compile {platform : Platform} {rest : Text}
    (run : platform.normalize rest = ['*']) :
    ['*'] ∈ (compile platform (platform.separator :: rest)).part .entry ∧
      ['*'] ∈ (compile platform ('*' :: platform.separator :: rest)).part .entry := by
  rw [compile_anchored, compile_anyDepth, run]
  cases platform <;> decide

end Phrase

/-- What a phrase for any depth is tried on: the path itself and what follows one of its
    separators. -/
def Platform.IsTail (platform : Platform) (tail path : Text) : Prop :=
  tail = path ∨
    ∃ before joiner, platform.IsSeparator joiner ∧ path = before ++ joiner :: tail

namespace Selection

variable {platform : Platform} {rest path : Text}

/-- A phrase for any depth picks a path exactly when the anchored phrase picks a tail of it,
    whatever extent is asked of masks for folders. -/
theorem exists_covers_anyDepth {extent : Scope → Extent} (wide : extent .entry = .either)
    (listable : Phrase.Listable (platform.separator :: rest))
    (given : Phrase.compile platform (platform.separator :: rest) ≠ ⟨[], []⟩) :
    (∃ scope, ∃ mask ∈ (ofText platform ('*' :: platform.separator :: rest)).part scope,
        mask.covers (extent scope) platform.separator (platform.normalize path)) ↔
      ∃ tail, platform.IsTail tail path ∧
        ∃ scope, ∃ mask ∈ (ofText platform (platform.separator :: rest)).part scope,
          mask.covers (extent scope) platform.separator (platform.normalize tail) := by
  have listableBehind : Phrase.Listable ('*' :: platform.separator :: rest) :=
    Phrase.listable_cons (by decide) (by decide) listable.finish listable.undelimited
  simp only [mem_part_ofText_of_listable listable, mem_part_ofText_of_listable listableBehind]
  by_cases run : platform.normalize rest = ['*']
  · obtain ⟨anchoredRun, anyDepthRun⟩ := Phrase.run_mem_part_compile run
    have covers (other : Text) : Mask.covers ['*'] (extent .entry) platform.separator other := by
      rw [wide]
      exact Mask.covers_run platform.separator other
    exact iff_of_true ⟨.entry, ['*'], anyDepthRun, covers _⟩
      ⟨path, .inl rfl, .entry, ['*'], anchoredRun, covers _⟩
  · simp only [Phrase.mem_part_compile_anyDepth given run]
    constructor
    · rintro ⟨scope, mask, ⟨anchored, member, rfl⟩ | member, covered⟩
      · obtain ⟨before, below, split, coversBelow⟩ :=
          (Mask.covers_run_separator platform.separator_ne_run
            platform.separator_ne_single).mp covered
        obtain ⟨folder, joiner, tail, rfl, separates, -, rfl⟩ :=
          Platform.normalize_eq_append_separator_iff.mp split
        exact ⟨tail, .inr ⟨folder, joiner, separates, rfl⟩, scope, anchored, member, coversBelow⟩
      · exact ⟨path, .inl rfl, scope, mask, member, covered⟩
    · rintro ⟨tail, rfl | ⟨before, joiner, separates, rfl⟩, scope, mask, member, covered⟩
      · exact ⟨scope, mask, .inr member, covered⟩
      · refine ⟨scope, '*' :: platform.separator :: mask, .inl ⟨mask, member, rfl⟩, ?_⟩
        rw [Platform.normalize_below separates]
        exact (Mask.covers_run_separator platform.separator_ne_run
          platform.separator_ne_single).mpr ⟨_, _, rfl, covered⟩

/-- A phrase for any depth picks a file exactly when the anchored phrase picks a tail of it. -/
theorem coversFile_anyDepth (listable : Phrase.Listable (platform.separator :: rest))
    (given : Phrase.compile platform (platform.separator :: rest) ≠ ⟨[], []⟩) :
    (ofText platform ('*' :: platform.separator :: rest)).coversFile platform.separator
        (platform.normalize path) ↔
      ∃ tail, platform.IsTail tail path ∧
        (ofText platform (platform.separator :: rest)).coversFile platform.separator
          (platform.normalize tail) := by
  simp only [coversFile_iff]
  exact exists_covers_anyDepth rfl listable given

/-- A phrase for any depth picks a folder exactly when the anchored phrase picks a tail of it. -/
theorem coversFolder_anyDepth (listable : Phrase.Listable (platform.separator :: rest))
    (given : Phrase.compile platform (platform.separator :: rest) ≠ ⟨[], []⟩) :
    (ofText platform ('*' :: platform.separator :: rest)).coversFolder platform.separator
        (platform.normalize path) ↔
      ∃ tail, platform.IsTail tail path ∧
        (ofText platform (platform.separator :: rest)).coversFolder platform.separator
          (platform.normalize tail) := by
  have eitherWay : (fun _ : Scope => Extent.either) .entry = .either := rfl
  simp only [coversFolder_iff]
  exact exists_covers_anyDepth eitherWay listable given

end Selection

namespace Rules

/-- A phrase that begins with a `*` and the separator holds back what it says at any depth: a
    file or a folder does not go through exactly when the path itself or what follows one of
    its separators does not go through where the phrase is anchored. -/
theorem excluding_at_any_depth (platform : Platform) (rest path : Text)
    (undelimited : ';' ∉ rest ∧ '\n' ∉ rest)
    (finish : ∀ character ∈ rest.getLast?, Text.isBlank character = false)
    (given : Phrase.compile platform (platform.separator :: rest) ≠ ⟨[], []⟩) :
    ((compile platform ['*'] ('*' :: platform.separator :: rest)).passesFile path = false ↔
      ∃ tail, platform.IsTail tail path ∧
        (compile platform ['*'] (platform.separator :: rest)).passesFile tail = false) ∧
    ((compile platform ['*'] ('*' :: platform.separator :: rest)).passesFolder path = false ↔
      ∃ tail, platform.IsTail tail path ∧
        (compile platform ['*'] (platform.separator :: rest)).passesFolder tail = false) := by
  have listable : Phrase.Listable (platform.separator :: rest) :=
    Phrase.listable_anchored platform finish
      (Phrase.forall_not_isDelimiter_iff.mpr undelimited)
  simp only [passesFile_compile_run, passesFolder_compile_run, Bool.not_eq_false']
  exact ⟨Selection.coversFile_anyDepth listable given,
    Selection.coversFolder_anyDepth listable given⟩

/-- Folders of generated code are held back wherever they are, with what is in them, and in any
    spelling; a folder whose name only ends alike is not. -/
theorem excluding_generated_at_any_depth :
    let anyDepth := compile .windows ['*'] "*\\Gen/*".toList
    let anchored := compile .windows ['*'] "\\Gen/*".toList
    Phrase.compile .windows "\\Gen/*".toList ≠ ⟨[], []⟩ ∧
      Platform.windows.IsTail "gen/a.rs".toList "src/gen/a.rs".toList ∧
      anchored.passesFile "gen/a.rs".toList = false ∧
      anyDepth.passesFile "src/gen/a.rs".toList = false ∧
      anyDepth.passesFolder "src/regen".toList = true := by
  intro anyDepth anchored
  have given : Phrase.compile .windows "\\Gen/*".toList ≠ ⟨[], []⟩ := by decide +kernel
  have tail : Platform.windows.IsTail "gen/a.rs".toList "src/gen/a.rs".toList :=
    .inr ⟨"src".toList, '/', by decide, rfl⟩
  have held : anchored.passesFile "gen/a.rs".toList = false := by decide +kernel
  have finish : ∀ character ∈ ("Gen/*".toList).getLast?, Text.isBlank character = false := by
    rintro character ⟨⟩
    decide
  obtain ⟨files, _⟩ := excluding_at_any_depth .windows "Gen/*".toList "src/gen/a.rs".toList
    (by decide) finish given
  exact ⟨given, tail, held, files.mpr ⟨_, tail, held⟩, by decide +kernel⟩

end Rules

end PathSieve
