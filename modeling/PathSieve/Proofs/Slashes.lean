import PathSieve.Proofs.Respelling
import PathSieve.Proofs.Spelling
import PathSieve.Proofs.Splitting

/-!
# Two separators, one behaviour

Two platforms fold case and differ in the separator: one has the slash, the other the backslash
and reads the slash as it. Lists and paths without a backslash mean the same on both, as
`windows_agrees_with_macos` says. The backslash itself is the exception: on the one platform it is
a character of names like any other.

What is spelled with slashes on the one platform is spelled with backslashes on the other. To
swap the two is a respelling from the one separator to the other and, being its own inverse, a
respelling back as well. So the masks of each platform are carried into those of the other, and
each picks wherever the other does.
-/

namespace PathSieve

namespace Text

/-- Put a backslash for a slash and a slash for a backslash. -/
def swapSlashes (character : Char) : Char :=
  if character = '/' then '\\' else if character = '\\' then '/' else character

variable {character : Char}

/-- A character that is none of the two is kept. -/
theorem swapSlashes_of_ne (noSlash : character ≠ '/') (noBackslash : character ≠ '\\') :
    swapSlashes character = character := by
  rw [swapSlashes, if_neg noSlash, if_neg noBackslash]

/-- To swap twice is to swap nothing. -/
@[simp] theorem swapSlashes_swapSlashes (character : Char) :
    swapSlashes (swapSlashes character) = character := by
  by_cases slash : character = '/'
  · subst slash
    rfl
  · by_cases backslash : character = '\\'
    · subst backslash
      rfl
    · rw [swapSlashes_of_ne slash backslash, swapSlashes_of_ne slash backslash]

/-- A character becomes another exactly when that one becomes the first. -/
theorem swapSlashes_eq_iff {other : Char} :
    swapSlashes character = other ↔ character = swapSlashes other := by
  constructor
  · rintro rfl
    exact (swapSlashes_swapSlashes character).symm
  · rintro rfl
    exact swapSlashes_swapSlashes other

end Text

/-- To swap the two slashes is a respelling from either to the other. -/
theorem respelling_swapSlashes (separator : Char) :
    Respelling Text.swapSlashes separator (Text.swapSlashes separator) where
  separator := fun _ => by rw [Text.swapSlashes_eq_iff, Text.swapSlashes_swapSlashes]
  run := fun _ => Text.swapSlashes_eq_iff
  single := fun _ => Text.swapSlashes_eq_iff

namespace Platform

/-- Where the backslash separates, a text without one is spelled with backslashes for the slashes
    of the other spelling. -/
theorem normalize_windows {text : Text} (plain : '\\' ∉ text) :
    windows.normalize text = (macos.normalize text).map Text.swapSlashes := by
  rw [normalize, normalize, List.map_map]
  apply List.map_congr_left
  intro character member
  by_cases slash : character = '/'
  · subst slash
    decide +kernel
  · have noBackslash : character ≠ '\\' := fun same => plain (same ▸ member)
    have capitalNoSlash : Text.capital character ≠ '/' :=
      mt (Text.capital_eq_mark_iff (by decide) character).mp slash
    have capitalNoBackslash : Text.capital character ≠ '\\' :=
      mt (Text.capital_eq_mark_iff (by decide) character).mp noBackslash
    have onWindows : windows.normalizeChar character = Text.capital character := by
      simp [normalizeChar, alternate?, foldsCase, Ne.symm slash]
    have onMacos : macos.normalizeChar character = Text.capital character := rfl
    rw [Function.comp_apply, onWindows, onMacos,
      Text.swapSlashes_of_ne capitalNoSlash capitalNoBackslash]

/-- The other way round the spelling with slashes is that with backslashes with the two swapped. -/
theorem normalize_macos_of_plain {text : Text} (plain : '\\' ∉ text) :
    macos.normalize text = (windows.normalize text).map Text.swapSlashes := by
  rw [normalize_windows plain, List.map_map]
  have twice : Text.swapSlashes ∘ Text.swapSlashes = id :=
    funext Text.swapSlashes_swapSlashes
  rw [twice, List.map_id]

end Platform

namespace Selection

variable {text path : Text}

/-- If what has no backslash in it is spelled alike on two platforms but for the two slashes, a list
    without one picks on the second platform wherever it picks on the first. -/
theorem picksWherever_of_swapped {first second : Platform}
    (separators : Text.swapSlashes first.separator = second.separator)
    (swapped : ∀ other, '\\' ∉ other →
      second.normalize other = (first.normalize other).map Text.swapSlashes)
    (plainText : '\\' ∉ text) (plainPath : '\\' ∉ path) :
    (ofText second text).PicksWherever second.separator (second.normalize path)
      (ofText first text) first.separator (first.normalize path) := by
  have respelling : Respelling Text.swapSlashes first.separator second.separator :=
    separators ▸ respelling_swapSlashes first.separator
  refine picksWherever_ofText respelling (fun phrase member => ?_) (swapped path plainPath)
  have plainPhrase : '\\' ∉ phrase :=
    fun within => plainText (Phrase.subset_of_mem_split member within)
  exact swapped phrase plainPhrase

/-- With the backslash to separate, a list without one picks wherever it picks with the slash. -/
theorem windows_picks_wherever_macos (plainText : '\\' ∉ text) (plainPath : '\\' ∉ path) :
    (ofText .windows text).PicksWherever '\\' (Platform.windows.normalize path)
      (ofText .macos text) '/' (Platform.macos.normalize path) :=
  picksWherever_of_swapped rfl (fun _ => Platform.normalize_windows) plainText plainPath

/-- With the slash to separate, a list without a backslash picks wherever it picks with the
    backslash. -/
theorem macos_picks_wherever_windows (plainText : '\\' ∉ text) (plainPath : '\\' ∉ path) :
    (ofText .macos text).PicksWherever '/' (Platform.macos.normalize path)
      (ofText .windows text) '\\' (Platform.windows.normalize path) :=
  picksWherever_of_swapped rfl (fun _ => Platform.normalize_macos_of_plain) plainText plainPath

end Selection

namespace Rules

/-- Where no backslash is written it does not matter which of the two separates: rules made of two
    lists without one let the same files and the same folders through on both platforms and give
    the same verdicts, with the same hints. -/
theorem windows_agrees_with_macos {included excluded path : Text} (plainIncluded : '\\' ∉ included)
    (plainExcluded : '\\' ∉ excluded) (plainPath : '\\' ∉ path) :
    (compile .windows included excluded).passesFile path =
        (compile .macos included excluded).passesFile path ∧
      (compile .windows included excluded).passesFolder path =
        (compile .macos included excluded).passesFolder path ∧
      (compile .windows included excluded).verdict path =
        (compile .macos included excluded).verdict path := by
  obtain ⟨filesIncluded, verdictsIncluded, _⟩ :=
    (Selection.windows_picks_wherever_macos plainIncluded plainPath).same
      (Selection.macos_picks_wherever_windows plainIncluded plainPath)
  obtain ⟨filesExcluded, _, verdictsExcluded⟩ :=
    (Selection.windows_picks_wherever_macos plainExcluded plainPath).same
      (Selection.macos_picks_wherever_windows plainExcluded plainPath)
  have file : (compile .windows included excluded).passesFile path =
      (compile .macos included excluded).passesFile path := by
    simp only [passesFile, compile, Platform.separator, filesIncluded, filesExcluded]
  have verdict : (compile .windows included excluded).verdict path =
      (compile .macos included excluded).verdict path := by
    simp only [verdict_eq_min, compile, Platform.separator, verdictsIncluded, verdictsExcluded]
  have folder : (compile .windows included excluded).passesFolder path =
      (compile .macos included excluded).passesFolder path := by
    rw [← passed_verdict, verdict, passed_verdict]
  exact ⟨file, folder, verdict⟩

/-- Notes without drafts. Both platforms enter the same folder for them and hold the same file
    back, although the one has spelled everything with backslashes by then. A backslash in the
    path would tell the two apart. -/
theorem windows_agrees_about_drafts :
    let included := "Docs/20??/*.txt;*/Notes/".toList
    let excluded := "*/draft*".toList
    '\\' ∉ included ∧ '\\' ∉ excluded ∧ '\\' ∉ "docs/2024".toList ∧
      (compile .macos included excluded).verdict "docs/2024".toList = .descend ∧
      (compile .windows included excluded).verdict "docs/2024".toList = .descend ∧
      (compile .macos included excluded).passesFile "a/notes/Draft/b".toList = false ∧
      (compile .windows included excluded).passesFile "a/notes/Draft/b".toList = false ∧
      (compile .macos included excluded).passesFile "a\\notes\\b".toList = false ∧
      (compile .windows included excluded).passesFile "a\\notes\\b".toList = true := by
  intro included excluded
  have plainIncluded : '\\' ∉ included := by decide
  have plainExcluded : '\\' ∉ excluded := by decide
  have plainFolder : '\\' ∉ "docs/2024".toList := by decide
  have entered : (compile .macos included excluded).verdict "docs/2024".toList = .descend := by
    decide +kernel
  have held : (compile .macos included excluded).passesFile "a/notes/Draft/b".toList = false := by
    decide +kernel
  obtain ⟨_, _, sameVerdict⟩ :=
    windows_agrees_with_macos plainIncluded plainExcluded plainFolder
  obtain ⟨sameFile, _, _⟩ := windows_agrees_with_macos plainIncluded plainExcluded
    (by decide : '\\' ∉ "a/notes/Draft/b".toList)
  exact ⟨plainIncluded, plainExcluded, plainFolder, entered, sameVerdict.trans entered, held,
    sameFile.trans held, by decide +kernel, by decide +kernel⟩

end Rules

end PathSieve
