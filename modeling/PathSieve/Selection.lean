import PathSieve.OrderedSet
import PathSieve.Phrase

/-!
# Selections

A selection is what one list of phrases picks out: a set of masks of either
scope. It covers a file through a mask of entry scope that describes the file or
a folder above it, or through a mask of folder scope that describes a folder
above it. It covers a folder through a mask of any scope that describes the folder
or one above it.

All paths here are in the normal spelling of the platform whose separator is given.
`insertText_ofText` says that adding a list to the selection of another is the same
as selecting by both lists joined with a delimiter.
-/

namespace PathSieve

/-- A set of masks. -/
abbrev MaskSet := OrderedSet Mask

/-- The masks that one list of phrases compiles to, by scope. -/
abbrev Selection := Scoped MaskSet

namespace Selection

/-- The selection that picks nothing. -/
def nothing : Selection := ⟨.empty, .empty⟩

/-- The selection of a single mask that describes every path. -/
def everything : Selection := ⟨.ofList [['*']], .empty⟩

/-- The selection of a list of phrases. -/
def ofText (platform : Platform) (text : Text) : Selection :=
  (Phrase.compileAll platform text).map .ofList

/-- Pick also what a list of phrases picks. -/
def insertText (selection : Selection) (platform : Platform) (text : Text) : Selection :=
  let masks := Phrase.compileAll platform text
  ⟨selection.entry.insertMany masks.entry, selection.folder.insertMany masks.folder⟩

/-- Whether a file is picked. -/
def coversFile (selection : Selection) (separator : Char) (path : Text) : Bool :=
  selection.entry.any (·.covers .either separator path) ||
    selection.folder.any (·.covers .ancestor separator path)

/-- Whether a folder is picked. -/
def coversFolder (selection : Selection) (separator : Char) (path : Text) : Bool :=
  selection.entry.any (·.covers .either separator path) ||
    selection.folder.any (·.covers .either separator path)

/-- Whether some path below a folder might be picked: a mask of the selection describes
    a text that begins with the folder and a separator. -/
def mayCoverBelow (selection : Selection) (separator : Char) (path : Text) : Bool :=
  selection.entry.any (·.mayBegin (path ++ [separator])) ||
    selection.folder.any (·.mayBegin (path ++ [separator]))

/-- Adding a list of phrases is selecting by the lists joined with a delimiter. -/
theorem insertText_ofText {delimiter : Char} (platform : Platform) (first second : Text)
    (parts : Phrase.isDelimiter delimiter) :
    (ofText platform first).insertText platform second =
      ofText platform (first ++ delimiter :: second) := by
  rw [ofText, ofText, Phrase.compileAll_append_delimiter platform first second parts]
  simp [insertText, Scoped.map, OrderedSet.ofList, OrderedSet.insertMany, List.foldl_append]

end Selection

end PathSieve
