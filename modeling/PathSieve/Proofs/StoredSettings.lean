import PathSieve.Record.Json
import PathSieve.Settings

/-!
# Stored settings

What a user keeps comes back, in whatever format records have, as long as the format writes and
reads JSON objects. What is written is an object with two strings, and by
`RecordFormat.IsJson.read?_of_spells` what is read of an object is settled by its members.

An object that was written by someone else may have its members in another order, may have
members that settings know nothing of, and may lack a list. All that counts is what it has under
each of the two names: each list is as `Record.GivenAs` says, and the members of what was
written give both.
-/

namespace PathSieve.Settings

open Record (GivenAs)

/-- Settings are read from every text of an object in which no name occurs twice, if what it gives
    as lists of phrases are strings. -/
theorem exists_read? {format : RecordFormat} (isJson : format.IsJson) {text : Text}
    {members : List (Text × Json)} (spelled : Json.Spells text (.object members))
    (distinct : (members.map Prod.fst).Nodup)
    (isText : ∀ name ∈ [includedName, excludedName], ∀ value,
      (name, value) ∈ members → ∃ phrases, value = .string phrases) :
    ∃ settings, read? format text = some settings ∧
      GivenAs members includedName ['*'] settings.included ∧
      GivenAs members excludedName [] settings.excluded := by
  have laidOver : format.read? usual.toRecord text = some (usual.toRecord.overlay members) :=
    isJson.read?_of_spells spelled distinct isText
  have knowsIncluded : usual.toRecord.get? includedName = some ['*'] := by decide
  have knowsExcluded : usual.toRecord.get? excludedName = some [] := by decide
  obtain ⟨included, foundIncluded, includedGiven⟩ := Record.exists_get?_overlay distinct
    (isText includedName List.mem_cons_self) knowsIncluded
  obtain ⟨excluded, foundExcluded, excludedGiven⟩ := Record.exists_get?_overlay distinct
    (isText excludedName (List.mem_cons_of_mem _ List.mem_cons_self)) knowsExcluded
  refine ⟨⟨included, excluded⟩, ?_, includedGiven, excludedGiven⟩
  rw [read?, laidOver, Option.bind_some, ofRecord?, foundIncluded, foundExcluded]
  rfl

/-- Settings are read back from the text that they are written as: it stands for an object that gives
    both lists. -/
theorem read?_write {format : RecordFormat} (isJson : format.IsJson) (settings : Settings) :
    read? format (write format settings) = some settings := by
  have isText : ∀ name ∈ [includedName, excludedName], ∀ value,
      (name, value) ∈ settings.toRecord.members → ∃ phrases, value = .string phrases := by
    intro _ _ value within
    obtain ⟨field, _, same⟩ := List.mem_map.mp within
    exact ⟨field.2, (Prod.mk.inj same).2.symm⟩
  have distinct : (settings.toRecord.members.map Prod.fst).Nodup := settings.toRecord.distinct
  obtain ⟨back, read, included, excluded⟩ :=
    exists_read? isJson (isJson.spells_write settings.toRecord) distinct isText
  have sameIncluded : back.included = settings.included :=
    included.of_mem settings.included List.mem_cons_self
  have sameExcluded : back.excluded = settings.excluded :=
    excluded.of_mem settings.excluded (List.mem_cons_of_mem _ List.mem_cons_self)
  rw [write, read, Settings.ext sameIncluded sameExcluded]

/-- Settings are read back from their text, whatever phrases they hold. And a text of an object in
    which no name occurs twice is read as settings if what it gives as lists of phrases
    are strings, in whatever order, with whatever gaps and escapes and among whatever other
    members: each list is the one that is given, or the usual one. -/
theorem survives_writing {format : RecordFormat} (isJson : format.IsJson) :
    (∀ settings : Settings, read? format (write format settings) = some settings) ∧
      ∀ (text : Text) (members : List (Text × Json)), Json.Spells text (.object members) →
        (members.map Prod.fst).Nodup →
        (∀ name ∈ [includedName, excludedName], ∀ value,
          (name, value) ∈ members → ∃ phrases, value = .string phrases) →
        ∃ settings, read? format text = some settings ∧
          GivenAs members includedName ['*'] settings.included ∧
          GivenAs members excludedName [] settings.excluded :=
  ⟨read?_write isJson, fun _ _ => exists_read? isJson⟩

/-- An object that gives what to hold back, with a letter written by its number, behind a member
    that settings know nothing of, whose number is greater than any double. -/
theorem spells_exclusion_behind_depth :
    Json.Spells " \x7b\"depth\" : 1e999 , \"exclude\":\"*.t\\u006dp\"\x7d".toList
      (.object [("depth".toList, .number "1e999".toList),
        (excludedName, .string "*.tmp".toList)]) := by
  have blank : Json.Gap [' '] := by
    simp [Json.Gap, Json.isGap]
  have number : Json.IsNumber (['1'] ++ [] ++ 'e' :: ['9', '9', '9']) :=
    .positive (.parts (.digits ⟨List.cons_ne_nil _ _, by simp⟩ (by decide)) .absent
      (.unsigned rfl ⟨List.cons_ne_nil _ _, by simp⟩))
  have numbered : Json.SpellsCharacter ['\\', 'u', '0', '0', '6', 'd'] 'm' :=
    .unit rfl rfl rfl
  have mask := Json.SpellsString.cons (Json.spellsCharacter_escape '*')
    (.cons (Json.spellsCharacter_escape '.') (.cons (Json.spellsCharacter_escape 't')
      (.cons numbered (Json.spellsString_flatMap_escape ['p']))))
  have depth := Json.Spelling.member Json.gap_nil
    (Json.spellsString_flatMap_escape "depth".toList) blank (.padded blank (.number number) blank)
  have exclusion := Json.Spelling.member blank (Json.spellsString_flatMap_escape excludedName)
    Json.gap_nil (.padded Json.gap_nil (.string mask) Json.gap_nil)
  exact Json.Spelling.padded blank (.object (.furtherMember depth (.lastMember exclusion)))
    Json.gap_nil

/-- Phrases with a quote, a backslash, controls and letters beyond ASCII are read back; and an object
    that gives only what to hold back, behind a member that settings know nothing of. -/
theorem survives_writing_of_quotes_and_of_a_missing_list :
    read? .json (write .json ⟨"\"a\\;\nß😀".toList, ['\x00', '\x7f']⟩) =
        some ⟨"\"a\\;\nß😀".toList, ['\x00', '\x7f']⟩ ∧
      ∃ settings,
        read? .json " \x7b\"depth\" : 1e999 , \"exclude\":\"*.t\\u006dp\"\x7d".toList =
          some settings ∧
        settings.included = ['*'] ∧ settings.excluded = "*.tmp".toList := by
  refine ⟨(survives_writing RecordFormat.isJson_json).1 _, ?_⟩
  have isText : ∀ name ∈ [includedName, excludedName], ∀ value,
      (name, value) ∈ [("depth".toList, Json.number "1e999".toList),
        (excludedName, .string "*.tmp".toList)] → ∃ phrases, value = .string phrases := by
    intro name named value given
    rcases List.mem_cons.mp given with same | given
    · cases same
      exact absurd named (by decide)
    · cases List.mem_singleton.mp given
      exact ⟨_, rfl⟩
  obtain ⟨settings, read, included, excluded⟩ := (survives_writing RecordFormat.isJson_json).2 _ _
    spells_exclusion_behind_depth (by decide) isText
  refine ⟨settings, read, included.of_missing fun value given => ?_, excluded.of_mem _ ?_⟩
  · have named : includedName ∈ ["depth".toList, excludedName] :=
      List.mem_map_of_mem (f := Prod.fst) given
    exact absurd named (by decide)
  · exact List.mem_cons_of_mem _ List.mem_cons_self

end PathSieve.Settings
