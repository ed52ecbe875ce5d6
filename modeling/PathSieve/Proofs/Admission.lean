import PathSieve.Proofs.Exclusion

/-!
# Below a folder that goes through

To let a folder through is to let through everything below it, except for what is held back.
This module says that rules which let a folder through answer below it as if they let
everything through: `answers_below_passed_folder`.

What picks a folder picks it under either scope, while a file below has to be reached through
a folder above it where the scope is that of folders. The folder that was picked is one.
Masks hand a folder down in this way, and selections with them, so below the folder only what
is held back is still asked for.
-/

namespace PathSieve

namespace Selection

variable {selection : Selection} {separator : Char} {path : Text}

/-- With a folder every folder below it is picked. -/
theorem coversFolder_below (below : Text) (picked : selection.coversFolder separator path) :
    selection.coversFolder separator (path ++ separator :: below) :=
  coversFolder_of_coversFile (coversFile_below below picked)

/-- What picks everything picks every folder. -/
theorem coversFolder_everything (separator : Char) (path : Text) :
    everything.coversFolder separator path = true :=
  coversFolder_of_coversFile (coversFile_everything separator path)

/-- A folder that is picked to be let through is let through. -/
theorem includeVerdict_of_coversFolder (picked : selection.coversFolder separator path) :
    selection.includeVerdict separator path = .pass := by
  rw [includeVerdict, if_pos picked]

end Selection

namespace Rules

/-- Rules that let everything through but for what they hold back let a file through unless
    it is held back. -/
theorem passesFile_compile_run (platform : Platform) (excluded path : Text) :
    (compile platform ['*'] excluded).passesFile path =
      !(Selection.ofText platform excluded).coversFile platform.separator
        (platform.normalize path) := by
  simp only [passesFile, compile, Selection.ofText_run, Selection.coversFile_everything,
    Bool.and_true]

/-- Rules that let everything through but for what they hold back let a folder through unless
    it is held back. -/
theorem passesFolder_compile_run (platform : Platform) (excluded path : Text) :
    (compile platform ['*'] excluded).passesFolder path =
      !(Selection.ofText platform excluded).coversFolder platform.separator
        (platform.normalize path) := by
  simp only [passesFolder, passed_judgeFolder, compile, Selection.ofText_run,
    Selection.coversFolder_everything, Bool.and_true]

/-- Rules that let everything through but for what they hold back judge a folder by that
    alone. -/
theorem verdict_compile_run (platform : Platform) (excluded path : Text) :
    (compile platform ['*'] excluded).verdict path =
      (Selection.ofText platform excluded).excludeVerdict platform.separator
        (platform.normalize path) := by
  simp only [verdict_eq_min, compile, Selection.ofText_run, Selection.includeVerdict_everything,
    Verdict.pass_min]

section Below

variable {rules : Rules} {joiner : Char} {path : Text}

/-- Below a folder that is picked to be let through a file goes through unless it is held
    back. -/
theorem passesFile_below (separates : rules.platform.IsSeparator joiner)
    (picked : rules.included.coversFolder rules.platform.separator
      (rules.platform.normalize path)) (below : Text) :
    rules.passesFile (path ++ joiner :: below) =
      !rules.excluded.coversFile rules.platform.separator
        (rules.platform.normalize (path ++ joiner :: below)) := by
  have admitted : rules.included.coversFile rules.platform.separator
      (rules.platform.normalize (path ++ joiner :: below)) := by
    rw [Platform.normalize_below separates]
    exact Selection.coversFile_below _ picked
  simp only [passesFile, admitted, Bool.and_true]

/-- Below a folder that is picked to be let through a folder is judged by what holds it back
    alone. -/
theorem verdict_below (separates : rules.platform.IsSeparator joiner)
    (picked : rules.included.coversFolder rules.platform.separator
      (rules.platform.normalize path)) (below : Text) :
    rules.verdict (path ++ joiner :: below) =
      rules.excluded.excludeVerdict rules.platform.separator
        (rules.platform.normalize (path ++ joiner :: below)) := by
  have admitted : rules.included.coversFolder rules.platform.separator
      (rules.platform.normalize (path ++ joiner :: below)) := by
    rw [Platform.normalize_below separates]
    exact Selection.coversFolder_below _ picked
  rw [verdict_eq_min, Selection.includeVerdict_of_coversFolder admitted, Verdict.pass_min]

end Below

/-- A folder that goes through takes everything below it along, except for what is held back:
    whatever follows the folder and a separator, rules that let the folder through give the
    same answers about a file and the same verdict on a folder as rules that let everything
    through and hold back the same. -/
theorem answers_below_passed_folder (platform : Platform) (included excluded path : Text)
    (passed : (compile platform included excluded).passesFolder path) (below : Text) :
    (compile platform included excluded).passesFile (path ++ platform.separator :: below) =
        (compile platform ['*'] excluded).passesFile (path ++ platform.separator :: below) ∧
      (compile platform included excluded).verdict (path ++ platform.separator :: below) =
        (compile platform ['*'] excluded).verdict (path ++ platform.separator :: below) := by
  have picked : (compile platform included excluded).included.coversFolder platform.separator
      (platform.normalize path) := by
    rw [passesFolder, passed_judgeFolder, Bool.and_eq_true] at passed
    exact passed.2
  constructor
  · rw [passesFile_compile_run]
    exact passesFile_below (.inl rfl) picked below
  · rw [verdict_compile_run]
    exact verdict_below (.inl rfl) picked below

/-- Manuals are let through as a folder only. What is in it goes through under any name, except
    that temporary files are held back, and that a folder of drafts in it is left although
    nothing but manuals is asked for. -/
theorem answers_below_manuals :
    let manuals := compile .windows "Manuals/".toList "*.tmp;*/drafts/".toList
    let anything := compile .windows ['*'] "*.tmp;*/drafts/".toList
    manuals.passesFolder "manuals".toList ∧
      anything.passesFile "manuals\\2024/read.me".toList ∧
      manuals.passesFile "manuals\\2024/read.me".toList ∧
      anything.passesFile "manuals\\2024/Scan.TMP".toList = false ∧
      manuals.passesFile "manuals\\2024/Scan.TMP".toList = false ∧
      anything.verdict "manuals\\2024/Drafts".toList = .prune ∧
      manuals.verdict "manuals\\2024/Drafts".toList = .prune := by
  intro manuals anything
  have passed : manuals.passesFolder "manuals".toList := by decide +kernel
  have below := answers_below_passed_folder .windows "Manuals/".toList "*.tmp;*/drafts/".toList
    "manuals".toList passed
  have file : anything.passesFile "manuals\\2024/read.me".toList := by decide +kernel
  have held : anything.passesFile "manuals\\2024/Scan.TMP".toList = false := by decide +kernel
  have folder : anything.verdict "manuals\\2024/Drafts".toList = .prune := by decide +kernel
  obtain ⟨sameFile, _⟩ := below "2024/read.me".toList
  obtain ⟨sameHeld, _⟩ := below "2024/Scan.TMP".toList
  obtain ⟨_, sameFolder⟩ := below "2024/Drafts".toList
  exact ⟨passed, file, sameFile.trans file, held, sameHeld.trans held, folder,
    sameFolder.trans folder⟩

end Rules

end PathSieve
