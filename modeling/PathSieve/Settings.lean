import PathSieve.Record
import PathSieve.Sieve.Trace

/-!
# Settings

Settings are the two lists of phrases as a user keeps them: what to let through and
what to hold back. A list that is not given has its usual value, a lone `*` and
nothing.

Settings are stored as records of two fields, in whatever format records have. The names of the
fields and the usual values are settled here, how a text is made of them and read is the format's.
-/

namespace PathSieve

/-- What to let through and what to hold back, as lists of phrases. -/
@[ext] structure Settings where
  included : Text
  excluded : Text
deriving DecidableEq, Repr

namespace Settings

/-- The usual settings let everything through. -/
def usual : Settings := ⟨['*'], []⟩

/-- Whether settings are the plainest way to let everything through. -/
def isUnrestricted (settings : Settings) : Bool :=
  Rules.isUnrestrictedText settings.included settings.excluded

/-- The sieve that settings describe. -/
def toSieve (settings : Settings) (platform : Platform) : Sieve :=
  if settings.isUnrestricted then .everything
  else .rules (.compile platform settings.included settings.excluded)

/-- The sieve that settings describe, with the events of making it. -/
def toSieveTraced (settings : Settings) (platform : Platform) : Traced Sieve :=
  if settings.isUnrestricted then pure .everything
  else .rules <$> Rules.compileTraced platform settings.included settings.excluded

/-- The traced way gives the plain result. -/
@[simp] theorem value_toSieveTraced (settings : Settings) (platform : Platform) :
    (settings.toSieveTraced platform).value = settings.toSieve platform := by
  rw [toSieveTraced, toSieve]
  split <;> rfl

/-- The member name of what to let through. -/
def includedName : Text := "include".toList

/-- The member name of what to hold back. -/
def excludedName : Text := "exclude".toList

/-- Settings as a record. -/
def toRecord (settings : Settings) : Record where
  fields := [(includedName, settings.included), (excludedName, settings.excluded)]
  distinct := (by decide : [includedName, excludedName].Nodup)

/-- The settings that a record holds, if it has both fields. -/
def ofRecord? (record : Record) : Option Settings := do
  let included ← record.get? includedName
  let excluded ← record.get? excludedName
  some ⟨included, excluded⟩

/-- The text that settings are stored as. -/
def write (format : RecordFormat) (settings : Settings) : Text :=
  format.write settings.toRecord

/-- Read settings from a text. A list of phrases that the text does not give has its usual value. -/
def read? (format : RecordFormat) (text : Text) : Option Settings :=
  (format.read? usual.toRecord text).bind ofRecord?

end Settings

end PathSieve
