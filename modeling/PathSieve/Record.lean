import PathSieve.Json.Grammar

/-!
# Records and their formats

A record is a list of named texts, each name once. It is what is left of a data type whose
fields are texts when the type is forgotten, and all that a library has to know which writes
and reads such types.

That library is not part of this development. A `RecordFormat` is the way it writes and reads
records, whatever it is, and `RecordFormat.IsJson` states what is known of it: a record is
written as a JSON object of its fields, and an object is read member by member, starting from
the usual record. The reading is described by what one member in front adds to the rest.
Nothing is said of texts that are no objects, of members that are no strings where the record
wants one, or of names that occur twice.

`IsJson.read?_of_spells` follows the members of a whole object: what is read is the usual
record with all of them laid over it, `Record.overlay`. What that makes of a field is
`GivenAs`, a matter of membership alone, in which the order of the members is lost.
-/

namespace PathSieve

/-- Texts under names, no two of which are the same. -/
@[ext] structure Record where
  fields : List (Text × Text)
  distinct : (fields.map Prod.fst).Nodup

namespace Record

/-- The names of the fields. -/
def names (record : Record) : List Text :=
  record.fields.map Prod.fst

/-- The text under a name. -/
def get? (record : Record) (name : Text) : Option Text :=
  record.fields.lookup name

/-- The record with another text under a name, if it is the name of a field. -/
def set (record : Record) (name text : Text) : Record where
  fields := record.fields.map fun field => (field.1, if field.1 = name then text else field.2)
  distinct := by
    rw [List.map_map]
    exact record.distinct

/-- The record as members of a JSON object. -/
def members (record : Record) : List (Text × Json) :=
  record.fields.map (Prod.map id .string)

/-- The record with a member of an object laid over it. The member counts if it is a string. -/
def lay (record : Record) : Text × Json → Record
  | (name, .string text) => record.set name text
  | _ => record

/-- The record with all members of an object laid over it, the first one last. -/
def overlay (record : Record) : List (Text × Json) → Record
  | [] => record
  | member :: members => (record.overlay members).lay member

/-- Setting a field keeps the names. -/
@[simp] theorem names_set (record : Record) (name text : Text) :
    (record.set name text).names = record.names := by
  rw [names, names, set, List.map_map]
  rfl

/-- Nothing is set under a name that no field has. -/
theorem set_of_not_mem {record : Record} {name : Text} (unknown : name ∉ record.names)
    (text : Text) : record.set name text = record := by
  have kept : ∀ field ∈ record.fields,
      (field.1, if field.1 = name then text else field.2) = field := by
    intro field within
    have differs : field.1 ≠ name := fun same => unknown (same ▸ List.mem_map_of_mem within)
    rw [if_neg differs]
  exact Record.ext ((List.map_congr_left kept).trans (List.map_id record.fields))

/-- Where every text is changed under its name, what is found is changed. -/
theorem lookup_map_change (change : Text → Text → Text) (fields : List (Text × Text))
    (name : Text) : (fields.map fun field => (field.1, change field.1 field.2)).lookup name =
      (fields.lookup name).map (change name) := by
  induction fields with
  | nil => rfl
  | cons field fields inductionHypothesis =>
    rw [List.map_cons, List.lookup_cons, List.lookup_cons, inductionHypothesis]
    cases found : name == field.1 with
    | false => rfl
    | true =>
      rw [eq_of_beq found]
      rfl

/-- What is set under the name of a field is found there. -/
theorem get?_set (record : Record) (name text : Text) :
    (record.set name text).get? name = (record.get? name).map fun _ => text := by
  rw [get?, set, lookup_map_change fun first held => if first = name then text else held]
  simp [get?]

/-- What is set under one name leaves the others alone. -/
theorem get?_set_of_ne {name other : Text} (differs : name ≠ other) (record : Record)
    (text : Text) : (record.set other text).get? name = record.get? name := by
  rw [get?, set, lookup_map_change fun first held => if first = other then text else held]
  simp [get?, differs]

/-- Laying a member over a record keeps the names. -/
@[simp] theorem names_lay (record : Record) (member : Text × Json) :
    (record.lay member).names = record.names := by
  unfold lay
  split
  · exact names_set record _ _
  · rfl

/-- Laying members over a record keeps the names. -/
@[simp] theorem names_overlay (record : Record) (members : List (Text × Json)) :
    (record.overlay members).names = record.names := by
  induction members with
  | nil => rfl
  | cons member members inductionHypothesis => rw [overlay, names_lay, inductionHypothesis]

/-- A member counts for nothing if no field has its name. -/
theorem lay_of_not_mem {record : Record} {name : Text} (unknown : name ∉ record.names)
    (value : Json) : record.lay (name, value) = record := by
  cases value with
  | string text => exact set_of_not_mem unknown text
  | _ => rfl

/-- A member leaves alone what has another name. -/
theorem get?_lay_of_ne {name other : Text} (differs : name ≠ other) (record : Record)
    (value : Json) : (record.lay (other, value)).get? name = record.get? name := by
  cases value with
  | string text => exact get?_set_of_ne differs record text
  | _ => rfl

/-- A field is what the members of an object give under its name, and what it usually is if they give
    nothing. -/
structure GivenAs (members : List (Text × Json)) (name usual text : Text) : Prop where
  of_mem : ∀ given, (name, .string given) ∈ members → text = given
  of_missing : (∀ value, (name, value) ∉ members) → text = usual

/-- What a member in front says of another field is nothing. -/
theorem GivenAs.cons_of_ne {members : List (Text × Json)} {name other usual text : Text}
    (differs : name ≠ other) (given : GivenAs members name usual text) (value : Json) :
    GivenAs ((other, value) :: members) name usual text := by
  refine ⟨fun found within => ?_, fun missing => ?_⟩
  · rcases List.mem_cons.mp within with same | within
    · exact absurd (Prod.mk.inj same).1 differs
    · exact given.of_mem found within
  · exact given.of_missing fun found within => missing found (List.mem_cons_of_mem _ within)

/-- A field is what a member in front gives, if no other member bears its name. -/
theorem GivenAs.cons_self {members : List (Text × Json)} {name : Text}
    (only : name ∉ members.map Prod.fst) (usual text : Text) :
    GivenAs ((name, .string text) :: members) name usual text := by
  refine ⟨fun found within => ?_, fun missing => absurd List.mem_cons_self (missing _)⟩
  rcases List.mem_cons.mp within with same | within
  · exact (Json.string.inj (Prod.mk.inj same).2).symm
  · exact absurd (List.mem_map_of_mem (f := Prod.fst) within) only

/-- With members laid over a record, every field is what they give, if they give strings
    and no name occurs twice. -/
theorem exists_get?_overlay {record : Record} {members : List (Text × Json)} {name usual : Text}
    (distinct : (members.map Prod.fst).Nodup)
    (isText : ∀ value, (name, value) ∈ members → ∃ text, value = .string text)
    (known : record.get? name = some usual) :
    ∃ text, (record.overlay members).get? name = some text ∧
      GivenAs members name usual text := by
  induction members with
  | nil => exact ⟨usual, known, nofun, fun _ => rfl⟩
  | cons member members inductionHypothesis =>
    obtain ⟨other, value⟩ := member
    rw [List.map_cons, List.nodup_cons] at distinct
    obtain ⟨text, found, given⟩ := inductionHypothesis distinct.2 fun value within =>
      isText value (List.mem_cons_of_mem _ within)
    by_cases same : name = other
    · subst same
      obtain ⟨new, rfl⟩ := isText value List.mem_cons_self
      refine ⟨new, ?_, GivenAs.cons_self distinct.1 usual new⟩
      rw [overlay, lay, get?_set, found]
      rfl
    · refine ⟨text, ?_, given.cons_of_ne same value⟩
      rw [overlay, get?_lay_of_ne same, found]

end Record

/-- A way to write records as texts and to read them, given the record that stands where a text says
    nothing. -/
structure RecordFormat where
  write : Record → Text
  read? : (usual : Record) → Text → Option Record

namespace RecordFormat

variable {format : RecordFormat}

/-- A format writes a record as a JSON object of its fields, and reads an object by its members,
    each by itself. -/
structure IsJson (format : RecordFormat) : Prop where
  /-- The members are the fields in their order, and their values are strings. -/
  spells_write : ∀ record, Json.Spells (format.write record) (.object record.members)
  /-- What no member gives has its usual value. -/
  read?_empty : ∀ usual text, Json.Spells text (.object []) → format.read? usual text = some usual
  /-- A string under the name of a field sets the field, if the name does not come again. -/
  read?_field : ∀ (usual : Record) text rest name value members,
    Json.Spells text (.object ((name, .string value) :: members)) →
    Json.Spells rest (.object members) →
    name ∈ usual.names → name ∉ members.map Prod.fst →
    format.read? usual text = (format.read? usual rest).map (·.set name value)
  /-- A member under any other name is passed over, whatever its value. -/
  read?_unknown : ∀ (usual : Record) text rest name value members,
    Json.Spells text (.object ((name, value) :: members)) →
    Json.Spells rest (.object members) →
    name ∉ usual.names → format.read? usual text = format.read? usual rest

/-- An object is read as the usual record with its members laid over it. -/
theorem IsJson.read?_of_spells (isJson : format.IsJson) {usual : Record} {text : Text}
    {members : List (Text × Json)} (spelled : Json.Spells text (.object members))
    (distinct : (members.map Prod.fst).Nodup)
    (isText : ∀ name ∈ usual.names, ∀ value,
      (name, value) ∈ members → ∃ text, value = .string text) :
    format.read? usual text = some (usual.overlay members) := by
  induction members generalizing text with
  | nil => exact isJson.read?_empty usual text spelled
  | cons member members inductionHypothesis =>
    obtain ⟨name, value⟩ := member
    obtain ⟨rest, spelledRest⟩ := Json.exists_spells_of_cons spelled
    rw [List.map_cons, List.nodup_cons] at distinct
    have read := inductionHypothesis spelledRest distinct.2 fun name known value within =>
      isText name known value (List.mem_cons_of_mem _ within)
    by_cases known : name ∈ usual.names
    · obtain ⟨given, rfl⟩ := isText name known value List.mem_cons_self
      rw [isJson.read?_field usual text rest name given members spelled spelledRest known distinct.1,
        read]
      rfl
    · have unknown : name ∉ (usual.overlay members).names := by rwa [Record.names_overlay]
      rw [isJson.read?_unknown usual text rest name value members spelled spelledRest known, read,
        Record.overlay, Record.lay_of_not_mem unknown]

end RecordFormat

end PathSieve
