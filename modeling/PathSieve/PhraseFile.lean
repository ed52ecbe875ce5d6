import PathSieve.Text.Utf8

/-!
# Phrase files

Phrases can be kept in a file. Reading it takes the octets that the system has under a
name and decodes them as UTF-8, all of them or none: nothing is stripped and nothing is
replaced. Whatever goes wrong is reported together with the name (`name_of_read_eq_error`).

How a system gets at its files is none of this library's business, so `Files` says no more
than what comes of it, for every name.
-/

namespace PathSieve.PhraseFile

/-- A file name as octets, which need not be text. -/
abbrev Name := List UInt8

/-- What can be had of the files of a system: under a name either all octets of the file, or in
    words the reason why there are none. -/
abbrev Files := Name → Except Text (List UInt8)

/-- Why a phrase file gave no text. -/
inductive Fault where
  /-- The octets could not be had, for a reason in words. -/
  | access (name : Name) (cause : Text)
  /-- The octets are not UTF-8. -/
  | encoding (name : Name) (cause : Text.Utf8.Fault)
deriving DecidableEq, Repr

namespace Fault

/-- The name of the file. -/
def name : Fault → Name
  | access name _ => name
  | encoding name _ => name

/-- The reason in words, without the file. -/
def cause : Fault → Text
  | access _ cause => cause
  | encoding _ cause => cause.message

/-- The report in words. A name that is not text is shown with replacement characters. -/
def message : Fault → Text
  | access name cause =>
    "failed to read filter phrases from '".toList ++ Text.Utf8.decodeLeniently name ++
      "': ".toList ++ cause
  | encoding name cause =>
    "filter phrase file '".toList ++ Text.Utf8.decodeLeniently name ++
      "' is not valid UTF-8: ".toList ++ cause.message

end Fault

/-- Decode the octets of a phrase file. -/
def decode (name : Name) (octets : List UInt8) : Except Fault Text :=
  (Text.Utf8.decode octets).mapError (Fault.encoding name)

/-- Read the phrase file under a name. -/
def read (files : Files) (name : Name) : Except Fault Text :=
  match files name with
  | .error cause => .error (.access name cause)
  | .ok octets => decode name octets

/-- Whatever goes wrong, the report is about the name that was asked for. -/
theorem name_of_read_eq_error {files : Files} {name : Name} {fault : Fault}
    (failed : read files name = .error fault) : fault.name = name := by
  unfold read decode at failed
  split at failed
  · cases failed
    rfl
  · next octets _ =>
    cases decoded : Text.Utf8.decode octets with
    | ok text =>
      rw [decoded] at failed
      cases failed
    | error cause =>
      rw [decoded] at failed
      cases failed
      rfl

end PathSieve.PhraseFile
