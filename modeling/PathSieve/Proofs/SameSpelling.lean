import PathSieve.Proofs.Spelling
import PathSieve.Proofs.Splitting

/-!
# Lists and paths of the same spelling

Lists of phrases are cut up and trimmed as they are written, and each phrase is brought into
normal spelling after that. A path is brought into normal spelling as it is asked about. This
module says that it makes no difference how either was spelled before: lists of the same normal
spelling give equal rules, and these give the same answers about paths of the same normal
spelling (`answers_of_same_spelling`).

A change of single characters that keeps blanks and delimiters what they are, and makes no
others, may be made before a list is split or after it, as `split_map` says. Normalizing is such
a change, so the phrases of a list in normal spelling are those of the list in normal spelling.
-/

namespace PathSieve

section Change

variable {change : Char → Char}

/-- Blanks may be dropped at the start before or after a change that keeps blanks. -/
theorem Text.trimStart_map (blanks : ∀ character, isBlank (change character) = isBlank character)
    (text : Text) : trimStart (text.map change) = (trimStart text).map change := by
  have sameBlanks : isBlank ∘ change = isBlank := funext blanks
  rw [trimStart, trimStart, List.dropWhile_map, sameBlanks]

/-- A text may be trimmed before or after a change that keeps blanks. -/
theorem Text.trim_map (blanks : ∀ character, isBlank (change character) = isBlank character)
    (text : Text) : trim (text.map change) = (trim text).map change := by
  rw [trim, trim, trimStart_map blanks, trimEnd, trimEnd, ← List.map_reverse,
    trimStart_map blanks, List.map_reverse]

namespace Phrase

/-- A text may be cut at its delimiters before or after a change that keeps delimiters. -/
theorem splitOnP_map
    (delimiters : ∀ character, isDelimiter (change character) = isDelimiter character)
    (text : Text) :
    (text.map change).splitOnP isDelimiter =
      (text.splitOnP isDelimiter).map (List.map change) := by
  induction text with
  | nil => rfl
  | cons first rest inductionHypothesis =>
    rw [List.map_cons, List.splitOnP_cons_eq_if_modifyHead,
      List.splitOnP_cons_eq_if_modifyHead, delimiters, inductionHypothesis]
    split
    · rfl
    · cases rest.splitOnP isDelimiter <;> rfl

/-- A list may be split before or after a change that keeps blanks and delimiters. -/
theorem split_map (blanks : ∀ character, Text.isBlank (change character) = Text.isBlank character)
    (delimiters : ∀ character, isDelimiter (change character) = isDelimiter character)
    (text : Text) : split (text.map change) = (split text).map (List.map change) := by
  have trimmed : Text.trim ∘ List.map change = List.map change ∘ Text.trim :=
    funext (Text.trim_map blanks)
  have emptiness : (fun phrase : Text => !phrase.isEmpty) ∘ List.map change =
      fun phrase => !phrase.isEmpty := by
    funext phrase
    exact congrArg not List.isEmpty_map
  rw [split_eq_splitOnP, split_eq_splitOnP, splitOnP_map delimiters, List.map_map, trimmed,
    ← List.map_map, List.filter_map, emptiness]

end Phrase

end Change

namespace Phrase

/-- The phrases of a list in normal spelling are its phrases, each in normal spelling. -/
theorem split_normalize (platform : Platform) (text : Text) :
    split (platform.normalize text) = (split text).map platform.normalize :=
  split_map platform.isBlank_normalizeChar platform.isDelimiter_normalizeChar text

/-- A phrase gives the masks that it gives in normal spelling. -/
theorem compile_normalize (platform : Platform) (phrase : Text) :
    compile platform (platform.normalize phrase) = compile platform phrase := by
  rw [compile, compile, Platform.normalize_normalize]

/-- A list gives the masks that it gives in normal spelling, in the same order. -/
theorem compileAll_normalize (platform : Platform) (text : Text) :
    compileAll platform (platform.normalize text) = compileAll platform text := by
  simp only [compileAll, Scoped.flatMap, split_normalize, List.flatMap_map, compile_normalize]

end Phrase

namespace Rules

/-- Lists give the rules that they give in normal spelling. -/
theorem compile_normalize (platform : Platform) (included excluded : Text) :
    compile platform (platform.normalize included) (platform.normalize excluded) =
      compile platform included excluded := by
  simp only [compile, Selection.ofText, Phrase.compileAll_normalize]

section Answers

variable (rules : Rules) (path : Text)

/-- Rules say of a file what they say of it in normal spelling. -/
theorem passesFile_normalize :
    rules.passesFile (rules.platform.normalize path) = rules.passesFile path := by
  simp only [passesFile, Platform.normalize_normalize]

/-- Rules judge a folder as they judge it in normal spelling. -/
theorem judgeFolder_normalize (wantsHint : Bool) :
    rules.judgeFolder (rules.platform.normalize path) wantsHint =
      rules.judgeFolder path wantsHint := by
  simp only [judgeFolder, Platform.normalize_normalize]

end Answers

/-- The spelling of lists and paths is of no account, neither the case of letters where case
    does not matter nor the choice among separators. Lists of the same normal spelling give
    equal rules, set of masks by set of masks, and the answers about a file and about a folder
    and the verdict with its hint are the same for paths of the same normal spelling. -/
theorem answers_of_same_spelling (platform : Platform)
    {firstIncluded secondIncluded firstExcluded secondExcluded firstPath secondPath : Text}
    (included : platform.normalize firstIncluded = platform.normalize secondIncluded)
    (excluded : platform.normalize firstExcluded = platform.normalize secondExcluded)
    (path : platform.normalize firstPath = platform.normalize secondPath) :
    compile platform firstIncluded firstExcluded =
        compile platform secondIncluded secondExcluded ∧
      (compile platform firstIncluded firstExcluded).passesFile firstPath =
        (compile platform secondIncluded secondExcluded).passesFile secondPath ∧
      (compile platform firstIncluded firstExcluded).passesFolder firstPath =
        (compile platform secondIncluded secondExcluded).passesFolder secondPath ∧
      (compile platform firstIncluded firstExcluded).verdict firstPath =
        (compile platform secondIncluded secondExcluded).verdict secondPath := by
  have same : compile platform firstIncluded firstExcluded =
      compile platform secondIncluded secondExcluded := calc
    compile platform firstIncluded firstExcluded
    _ = compile platform (platform.normalize firstIncluded) (platform.normalize firstExcluded) :=
      (compile_normalize platform firstIncluded firstExcluded).symm
    _ = compile platform (platform.normalize secondIncluded)
          (platform.normalize secondExcluded) := by
      rw [included, excluded]
    _ = compile platform secondIncluded secondExcluded :=
      compile_normalize platform secondIncluded secondExcluded
  let own := compile platform secondIncluded secondExcluded
  have samePath : own.platform.normalize firstPath = own.platform.normalize secondPath := path
  have file : own.passesFile firstPath = own.passesFile secondPath := by
    rw [← own.passesFile_normalize firstPath, samePath, own.passesFile_normalize]
  have folder (wantsHint : Bool) :
      own.judgeFolder firstPath wantsHint = own.judgeFolder secondPath wantsHint := by
    rw [← own.judgeFolder_normalize firstPath, samePath, own.judgeFolder_normalize]
  rw [same]
  exact ⟨rfl, file, congrArg Decision.passed (folder false),
    congrArg Decision.verdict (folder true)⟩

/-- Two people write the same lists for the same folder, one in small letters and with slashes,
    the other in capitals and with backslashes. A letter without a capital of its own has to be
    the same on both sides. -/
theorem answers_for_streets_in_capitals :
    let small := compile .windows "straße/é*.txt ;notes/".toList "*/old/*".toList
    let large := compile .windows "STRAßE\\É*.TXT ;NOTES\\".toList "*\\OLD\\*".toList
    Platform.windows.normalize "straße/é*.txt ;notes/".toList =
        Platform.windows.normalize "STRAßE\\É*.TXT ;NOTES\\".toList ∧
      Platform.windows.normalize "*/old/*".toList =
        Platform.windows.normalize "*\\OLD\\*".toList ∧
      Platform.windows.normalize "Straße/Été.txt".toList =
        Platform.windows.normalize "straße\\ÉTÉ.TXT".toList ∧
      small = large ∧ small.passesFile "Straße/Été.txt".toList ∧
      large.passesFile "straße\\ÉTÉ.TXT".toList := by
  intro small large
  have included : Platform.windows.normalize "straße/é*.txt ;notes/".toList =
      Platform.windows.normalize "STRAßE\\É*.TXT ;NOTES\\".toList := by decide +kernel
  have excluded : Platform.windows.normalize "*/old/*".toList =
      Platform.windows.normalize "*\\OLD\\*".toList := by decide +kernel
  have path : Platform.windows.normalize "Straße/Été.txt".toList =
      Platform.windows.normalize "straße\\ÉTÉ.TXT".toList := by decide +kernel
  have passed : small.passesFile "Straße/Été.txt".toList := by decide +kernel
  obtain ⟨same, file, _⟩ := answers_of_same_spelling .windows included excluded path
  exact ⟨included, excluded, path, same, passed, file ▸ passed⟩

end Rules

end PathSieve
