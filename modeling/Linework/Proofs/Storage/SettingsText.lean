import Linework.Proofs.Json.Reading
import Linework.Storage.Settings

/-!
# `Linework.Proofs.Storage.SettingsText`: settings as they are written

Settings are written as a record of all fields, and such a text is read as these settings
(`parse?_toJson`): every text and every number of the right range comes back, and so does the
absent document. The version decides whether they are accepted (`accept_toJson`).
-/

set_option autoImplicit false

namespace Linework

namespace Settings

/-! ## Values -/

/-- A number of 32 bits is read as it was written. -/
theorem word32?_ofNat (n : UInt32) : word32? (.ofNat n.toNat) = some n := by
  simp [word32?, Json.natural?_ofNat, n.toNat_lt]

/-- A number of 64 bits is read as it was written. -/
theorem word64?_ofNat (n : UInt64) : word64? (.ofNat n.toNat) = some n := by
  simp [word64?, Json.natural?_ofNat, n.toNat_lt]

/-- A document is read as it was written, and so is the absence of one. -/
theorem document?_documentJson (document : Option String) :
    document? (documentJson document) = some document := by
  cases document with
  | none => rfl
  | some path => exact congrArg (Option.map some) (Json.text?_text path)

/-! ## Fields -/

/-- The fields of a record go by the names that they were given. -/
theorem namedFields?_map_quote (fields : List (String × Json)) :
    namedFields? (fields.map fun field => (Json.quote field.1, field.2)) = some fields := by
  induction fields with
  | nil => rfl
  | cons field fields ih => simp [namedFields?, Json.unquote?_quote, ih]

/-- Every field that is written is found by its name. -/
theorem values?_fields (s : Settings) :
    values? s.fields fieldNames = some (s.fields.map fun field => some field.2) := by
  simp [values?, value?, fields, fieldNames]

/-- What is made of settings makes them up again. -/
theorem ofJson?_toJson (s : Settings) : ofJson? s.toJson = some s := by
  have named := namedFields?_map_quote s.fields
  have made : ofValues? (s.fields.map fun field => some field.2) = some s := by
    simp [fields, ofValues?, fieldOr, word32?_ofNat, word64?_ofNat, document?_documentJson,
      Json.text?_text]
  simp [ofJson?, toJson, Json.record, named, values?_fields, made]

/-- The document is written in a form that can be read back. -/
theorem readable_documentJson (document : Option String) :
    Json.Readable (documentJson document) := by
  cases document with
  | none => trivial
  | some path => exact Json.readable_text path

/-- And so are all settings. -/
theorem readable_toJson (s : Settings) : Json.Readable s.toJson := by
  refine Json.readable_record ?_
  simp [fields, Json.readable_ofNat, Json.readable_text, readable_documentJson]

/-! ## The text -/

/-- Written settings are read as they were. -/
theorem parse?_toJson (s : Settings) : parse? s.toJson.pretty = some s := by
  rw [parse?, Json.parse?_pretty s.readable_toJson, Option.bind_some, ofJson?_toJson]

/-- Written settings are accepted, unless they are of a newer version. -/
theorem accept_toJson (s : Settings) :
    accept s.toJson.pretty
      = if supportedVersion < s.version then .error (.newer s.version) else .ok s := by
  rw [accept, parse?_toJson]

/-- No accepted settings are of a newer version. -/
theorem accept_eq_ok_iff {text : String} {s : Settings} :
    accept text = .ok s ↔ parse? text = some s ∧ ¬ supportedVersion < s.version := by
  unfold accept
  cases parse? text with
  | none => simp
  | some s' =>
    simp only [Option.some.injEq]
    split
    · rename_i newer
      simp only [reduceCtorEq, false_iff, not_and, not_not]
      exact fun same => same ▸ newer
    · rename_i known
      simp only [Except.ok.injEq, iff_self_and]
      exact fun same => same ▸ known

end Settings

end Linework
