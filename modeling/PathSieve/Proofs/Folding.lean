import PathSieve.Proofs.Admission
import PathSieve.Proofs.Respelling
import PathSieve.Proofs.Spelling

/-!
# Case folding picks more

A list of phrases picks more where case does not matter: whatever it picks with case it also picks
without. This module says so of the two platforms that differ in nothing else. For a list of what
is let through, folding lets through at least as much, and for a list of what is held back it
holds back at least as much: `folding_picks_more`.

Masks and paths are folded one by one before they are compared. The comparison survives that
because folding is a respelling: a character that means something in masks or paths is its own
capital and the capital of no other character.
-/

namespace PathSieve

/-- Taking capitals is a respelling that leaves the slash where it is. -/
theorem respelling_capital : Respelling Text.capital '/' '/' where
  separator := Text.capital_eq_mark_iff (by decide)
  run := Text.capital_eq_mark_iff (by decide)
  single := Text.capital_eq_mark_iff (by decide)

/-- Where case does not matter but the slash separates, a text is spelled in capitals of what it
    is where case matters. -/
theorem Platform.normalize_macos (text : Text) :
    macos.normalize text = (posix.normalize text).map Text.capital := by
  have asWritten : posix.normalize text = text := List.map_id text
  rw [asWritten]
  rfl

/-- Without case a list picks wherever it picks with case: its masks with case are carried into
    those without by taking capitals. -/
theorem Selection.macos_picks_wherever_posix (text path : Text) :
    (ofText .macos text).PicksWherever '/' (Platform.macos.normalize path)
      (ofText .posix text) '/' (Platform.posix.normalize path) :=
  picksWherever_ofText respelling_capital (fun phrase _ => Platform.normalize_macos phrase)
    (Platform.normalize_macos path)

namespace Rules

/-- Rules that hold nothing back let a file through when it is picked. -/
theorem passesFile_compile_nil (platform : Platform) (included path : Text) :
    (compile platform included []).passesFile path =
      (Selection.ofText platform included).coversFile platform.separator
        (platform.normalize path) := by
  have nothingHeld : (Selection.ofText platform []).coversFile platform.separator
      (platform.normalize path) = false := rfl
  simp only [passesFile, compile, nothingHeld, Bool.not_false, Bool.true_and]

/-- Rules that hold nothing back judge a folder by what is let through alone. -/
theorem verdict_compile_nil (platform : Platform) (included path : Text) :
    (compile platform included []).verdict path =
      (Selection.ofText platform included).includeVerdict platform.separator
        (platform.normalize path) := by
  have nothingHeld : (Selection.ofText platform []).excludeVerdict platform.separator
      (platform.normalize path) = .pass := rfl
  simp only [verdict_eq_min, compile, nothingHeld, Verdict.min_pass]

/-- To fold case is to pick more. What a list lets through with case it lets through without, and
    the verdict on a folder is no stricter; what a list holds back with case it holds back
    without, and the verdict on a folder is no more permissive. -/
theorem folding_picks_more (included excluded path : Text) :
    ((compile .posix included []).passesFile path →
        (compile .macos included []).passesFile path) ∧
      (compile .posix included []).verdict path ≤ (compile .macos included []).verdict path ∧
      ((compile .posix ['*'] excluded).passesFile path = false →
        (compile .macos ['*'] excluded).passesFile path = false) ∧
      (compile .macos ['*'] excluded).verdict path ≤
        (compile .posix ['*'] excluded).verdict path := by
  simp only [passesFile_compile_nil, verdict_compile_nil, passesFile_compile_run,
    verdict_compile_run, Bool.not_eq_false']
  have admits := Selection.macos_picks_wherever_posix included path
  have holds := Selection.macos_picks_wherever_posix excluded path
  exact ⟨admits.file, admits.includeVerdict_le, holds.file, holds.excludeVerdict_le⟩

/-- Notes in a folder of reports. With case the folder is known by one name only; without, it is
    known by all of them, and nothing that was picked by the one name is lost. -/
theorem folding_picks_reports :
    let list := "Reports/*.Été".toList
    (compile .posix list []).passesFile "Reports/notes.Été".toList ∧
      (compile .macos list []).passesFile "Reports/notes.Été".toList ∧
      (compile .posix ['*'] list).passesFile "Reports/notes.Été".toList = false ∧
      (compile .macos ['*'] list).passesFile "Reports/notes.Été".toList = false ∧
      (compile .posix list []).verdict "reports".toList = .prune ∧
      (compile .macos list []).verdict "reports".toList = .descend := by
  intro list
  have admitted : (compile .posix list []).passesFile "Reports/notes.Été".toList := by
    decide +kernel
  have held : (compile .posix ['*'] list).passesFile "Reports/notes.Été".toList = false := by
    decide +kernel
  obtain ⟨admits, _, holds, _⟩ := folding_picks_more list list "Reports/notes.Été".toList
  exact ⟨admitted, admits admitted, held, holds held, by decide +kernel, by decide +kernel⟩

end Rules

end PathSieve
