import PathSieve.Json.Printer
import PathSieve.Proofs.JsonReading
import PathSieve.Record

/-!
# A format of records

One format that is all that `RecordFormat.IsJson` asks for, on every text. It writes a record as the
compact text of an object and reads a text in two stages, first as a value and then as a record.
It refuses an object with a field given twice or given as anything but a string, and whatever is no
object.

`isJson_json` rests on both stages: what is written stands for the object, and of two texts with one
member between them each is read as the object that it stands for, since every
spelling is read.
-/

namespace PathSieve.RecordFormat

/-- Fill a record from the members of an object, unless a field comes twice or is no string. -/
def fill? (usual : Record) : List (Text × Json) → Option Record
  | [] => some usual
  | (name, value) :: members =>
    if name ∈ usual.names then
      match value with
      | .string text =>
        if name ∈ members.map Prod.fst then none
        else (fill? usual members).map (·.set name text)
      | _ => none
    else fill? usual members

/-- Records as JSON objects. -/
def json : RecordFormat where
  write record := Json.objectText record.fields
  read? usual text := do
    match ← Json.parse? text with
    | .object members => fill? usual members
    | _ => none

/-- An object is read by its members. -/
theorem read?_json {text : Text} {members : List (Text × Json)}
    (spelled : Json.Spells text (.object members)) (usual : Record) :
    json.read? usual text = fill? usual members := by
  simp [json, Json.parse?_of_spells spelled]

/-- What is asked of a format holds of this one. -/
theorem isJson_json : json.IsJson where
  spells_write record := Json.spells_objectText record.fields
  read?_empty usual text spelled := by
    rw [read?_json spelled, fill?]
  read?_field usual text rest name value members spelled spelledRest known only := by
    rw [read?_json spelled, read?_json spelledRest, fill?, if_pos known]
    exact if_neg only
  read?_unknown usual text rest name value members spelled spelledRest unknown := by
    rw [read?_json spelled, read?_json spelledRest]
    cases value <;> exact if_neg unknown

end PathSieve.RecordFormat
