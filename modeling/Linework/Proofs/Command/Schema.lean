import Linework.Command.Catalog
import Linework.Proofs.Argument.Bindings
import Linework.Proofs.Argument.Exported
import Linework.Proofs.Command.Registration
import Linework.Proofs.Json.Fields

/-!
# `Linework.Proofs.Command.Schema`: what a schema says of arguments

The schema of a command and the check of its arguments are two readings of the same parameters.
The schema goes by names, and the check by positions, first through the required parameters and then
through the optional ones. They meet because the parameters of a registered command have names of
their own (`Registry.distinct_of_build`). So no property takes the place of another, and no value
either: what stands under the name of a parameter is the value of its token (`get?_of_token`) or,
if there is none, the value that it declares (`get?_of_no_token`).

A value of the parameter's kind is one that its schema describes (`Param.describes_of_hasKind`).
Declared values are not checked against the kind, so of these only this much is said: what the
schema has as default is read as the value that is filled in.
-/

set_option autoImplicit false

namespace Linework

/-! ## Schemas of parameters -/

/-- The words that a kind takes, if it has a choice of them. -/
def ParamKind.words? : ParamKind → Option (List String)
  | choice options => some options
  | _ => none

/-- The type that the schema of a kind names. -/
def ParamKind.typeName : ParamKind → String
  | number => "number"
  | truth => "boolean"
  | _ => "string"

namespace Param

/-- A parameter's schema names the type of its kind. -/
theorem schema_type (p : Param) : p.schema.field? "type" = some (.text p.kind.typeName) := by
  rw [schema, Json.field?_sortedRecord]
  obtain ⟨name, kind, fallback⟩ := p
  cases kind <;> cases fallback <;> rfl

/-- It lists the words of a choice, and none for other kinds. -/
theorem schema_enum (p : Param) : p.schema.field? "enum" = p.kind.words?.map Json.texts := by
  rw [schema, Json.field?_sortedRecord]
  obtain ⟨name, kind, fallback⟩ := p
  cases kind <;> cases fallback <;> rfl

/-- It has the declared value, if there is one. -/
theorem schema_default (p : Param) :
    p.schema.field? "default" = p.fallback.map ArgValue.toJson := by
  rw [schema, Json.field?_sortedRecord]
  obtain ⟨name, kind, fallback⟩ := p
  cases kind <;> cases fallback <;> rfl

end Param

/-- The schema names the type of the value, which is that of its JSON if there is one, and lists the
value if it lists any. -/
structure Json.Describes (schema : Json) (value : ArgValue) : Prop where
  type : schema.field? "type" = some (.text value.typeName)
  shown : value.IsFinite → schema.field? "type" = some (.text value.toJson.typeName)
  listed : ∀ words, schema.field? "enum" = some (.array words) → value.toJson ∈ words

/-- A value of a parameter's kind is one that the parameter's schema describes. -/
theorem Param.describes_of_hasKind {p : Param} {value : ArgValue} (kind : value.HasKind p.kind) :
    p.schema.Describes value := by
  have type : p.kind.typeName = value.typeName := by
    obtain ⟨name, kind', fallback⟩ := p
    cases kind' <;> cases value <;> first | rfl | exact kind.elim
  refine ⟨?_, fun finite => ?_, fun words enum => ?_⟩
  · rw [schema_type, type]
  · rw [schema_type, type, Json.typeName_toJson finite]
  · rw [schema_enum] at enum
    -- Only a choice of words is listed.
    obtain ⟨options, taken, rfl⟩ : ∃ options, p.kind = .choice options ∧
        words = options.map Json.text := by
      cases kind' : p.kind with
      | choice options =>
        rw [kind'] at enum
        cases enum
        exact ⟨options, rfl, rfl⟩
      | _ =>
        rw [kind'] at enum
        cases enum
    rw [taken] at kind
    cases value with
    | text word => exact List.mem_map_of_mem kind
    | _ => exact kind.elim

/-! ## Values by position -/

section Values

variable {tokens : List String} {required optional : List Param}
  (once : ((required ++ optional).map Param.name).Nodup)
  (ok : (checkArguments tokens required optional).isOk = true)

/-- The values of a check are those of `checkedBindings`. -/
theorem values_checkArguments (tokens : List String) (required optional : List Param) :
    (checkArguments tokens required optional).values
      = Arguments.ofList (checkedBindings tokens required optional) := by
  have nothing : ArgCheck.start.values = Arguments.ofList [] := rfl
  exact ArgCheck.values_scan nothing tokens required optional

include ok

/-- The names that get a value come in the order of the parameters. -/
theorem sublist_checkedBindings :
    ((checkedBindings tokens required optional).map Prod.fst).Sublist
      ((required ++ optional).map Param.name) := by
  obtain ⟨enough, found⟩ := enough_of_isOk ok
  rw [map_fst_checkedBindings enough found]
  exact sublist_map_name _ _

/-- Every name with a value is that of a parameter. -/
theorem mem_names_of_mem_keys {name : String}
    (among : name ∈ (checkArguments tokens required optional).values.keys) :
    name ∈ (required ++ optional).map Param.name := by
  rw [values_checkArguments, Arguments.keys_ofList, List.mem_eraseDups] at among
  exact (sublist_checkedBindings ok).subset among

include once

/-- What is inserted under a name stays there, for every name is inserted once. -/
theorem get?_of_mem_checkedBindings {name : String} {value : ArgValue}
    (bound : (name, value) ∈ checkedBindings tokens required optional) :
    (checkArguments tokens required optional).values.get? name = some value := by
  have alone := once.sublist (sublist_checkedBindings ok)
  rw [values_checkArguments, Arguments.get?_ofList]
  refine lookup_of_mem ?_ (List.mem_reverse.mpr bound)
  rw [List.map_reverse]
  exact List.nodup_reverse.mpr alone

/-- A parameter that got a token has the token's value. -/
theorem get?_of_token {i : Nat} {p : Param} {token : String}
    (place : (required ++ optional)[i]? = some p) (given : tokens[i]? = some token) :
    ∃ value, p.coerce token = .ok value ∧
      (checkArguments tokens required optional).values.get? p.name = some value := by
  obtain ⟨-, found⟩ := enough_of_isOk ok
  have paired : (token, p) ∈ tokens.zip (required ++ optional) := by
    refine List.mem_of_getElem? (i := i) ?_
    rw [List.getElem?_zip_eq_some]
    exact ⟨given, place⟩
  obtain ⟨value, coerced⟩ := found _ paired
  refine ⟨value, coerced, get?_of_mem_checkedBindings once ok (List.mem_append_left _ ?_)⟩
  refine List.mem_filterMap.mpr ⟨_, paired, ?_⟩
  rw [Param.binding?, coerced]

/-- A parameter that got none has the value that it declares, if it declares one. -/
theorem get?_of_no_token {i : Nat} {p : Param} (place : (required ++ optional)[i]? = some p)
    (missing : tokens[i]? = none) :
    (checkArguments tokens required optional).values.get? p.name = p.fallback := by
  obtain ⟨enough, found⟩ := enough_of_isOk ok
  obtain ⟨within, rfl⟩ := List.getElem?_eq_some_iff.mp place
  have late : tokens.length ≤ i := List.getElem?_eq_none_iff.mp missing
  cases declared : (required ++ optional)[i].fallback with
  | none =>
    -- No other parameter has the name, so nothing else was put under it.
    rw [← Option.not_isSome_iff_eq_none, Arguments.isSome_get?_iff, values_checkArguments,
      Arguments.keys_ofList, List.mem_eraseDups, map_fst_checkedBindings enough found,
      name_mem_iff once within, declared]
    simpa using late
  | some value =>
    refine get?_of_mem_checkedBindings once ok (List.mem_append_right _ ?_)
    rw [if_pos enough]
    refine List.mem_filterMap.mpr ⟨(required ++ optional)[i], ?_, ?_⟩
    · refine List.mem_drop_iff_getElem.mpr ⟨i - tokens.length, by omega, ?_⟩
      congr 1
      omega
    · rw [Param.fallbackBinding?, declared]
      rfl

end Values

/-! ## Schemas of commands -/

namespace Command

/-- The properties of a command's schema, by name. -/
def properties (c : Command) : List (String × Json) :=
  Json.sortFields (c.params.map fun p => (p.name, p.schema))

/-- A command's schema has the schemas of its parameters as properties. -/
theorem inputSchema_properties (c : Command) :
    c.inputSchema.field? "properties" = some (.record c.properties) := by
  rw [inputSchema, Json.field?_sortedRecord]
  rfl

/-- And it has the names of the required ones. -/
theorem inputSchema_required (c : Command) :
    c.inputSchema.field? "required" = some (.texts (c.required.map Param.name)) := by
  rw [inputSchema, Json.field?_sortedRecord]
  rfl

end Command

namespace Registry

/-- The parameters of a registered command have names of their own. -/
theorem distinct_of_build {commands : List Command} {r : Registry} (built : build commands = .ok r)
    {c : Command} (among : c ∈ r.commands) : (c.params.map Param.name).Nodup := by
  obtain ⟨valid, -, rfl⟩ := build_eq_ok_iff.mp built
  exact (Command.validate_eq_ok_iff.mp (valid c among)).distinct

/-- The schema of a registered command has one property for each parameter, by its name and with
its words and its declared value. Of arguments that pass the check, every required name has a value,
and every value has a property. The property describes the value of a token, and its default is the
value that is there without one. -/
theorem inputSchema_agrees_with_check {commands : List Command} {r : Registry}
    (built : build commands = .ok r) {c : Command} (among : c ∈ r.commands)
    (finite : ∀ p ∈ c.params, ∀ value, p.fallback = some value → value.IsFinite) :
    ∃ (properties : List (String × Json)) (required : List String),
      c.inputSchema.field? "properties" = some (.record properties) ∧
      c.inputSchema.field? "required" = some (.texts required) ∧
      properties.Perm (c.params.map fun p => (p.name, p.schema)) ∧
      (properties.map Prod.fst).Nodup ∧
      (∀ p ∈ c.params, p.schema.field? "enum" = p.kind.words?.map .texts ∧
        p.schema.field? "default" = p.fallback.map ArgValue.toJson) ∧
      ∀ tokens, (c.check tokens).isOk = true →
        let values := (c.check tokens).values
        (∀ name ∈ required, name ∈ values.keys) ∧
        (∀ name ∈ values.keys, name ∈ properties.map Prod.fst) ∧
        ∀ (i : Nat) (p : Param), c.params[i]? = some p →
          (∀ token, tokens[i]? = some token → ∃ value, p.coerce token = .ok value ∧
            values.get? p.name = some value ∧ p.schema.Describes value) ∧
          (tokens[i]? = none →
            values.get? p.name = (p.schema.field? "default").bind Json.argument?) := by
  have once := distinct_of_build built among
  have names : (c.params.map fun p => (p.name, p.schema)).map Prod.fst
      = c.params.map Param.name := by
    rw [List.map_map]
    rfl
  have perm : c.properties.Perm (c.params.map fun p => (p.name, p.schema)) :=
    Json.sortFields_perm (names ▸ once)
  have keys : (c.properties.map Prod.fst).Perm (c.params.map Param.name) :=
    names ▸ perm.map Prod.fst
  refine ⟨c.properties, c.required.map Param.name, c.inputSchema_properties, c.inputSchema_required,
    perm, keys.nodup_iff.mpr once, fun p _ => ⟨p.schema_enum, p.schema_default⟩, ?_⟩
  intro tokens ok values
  refine ⟨?_, fun name valued => keys.mem_iff.mpr (mem_names_of_mem_keys ok valued), ?_⟩
  · intro name needed
    obtain ⟨p, demanded, rfl⟩ := List.mem_map.mp needed
    obtain ⟨value, found, -⟩ := exists_value_of_checked once ok demanded
    rw [← Arguments.isSome_get?_iff]
    exact Option.isSome_of_eq_some found
  · intro i p place
    refine ⟨fun token given => ?_, fun missing => ?_⟩
    · obtain ⟨value, coerced, found⟩ := get?_of_token once ok place given
      exact ⟨value, coerced, found, p.describes_of_hasKind (Param.hasKind_of_coerce coerced)⟩
    · -- The declared value is finite, so nothing of it is lost in the schema.
      show (checkArguments tokens c.required c.optional).values.get? p.name = _
      rw [get?_of_no_token once ok place missing, p.schema_default]
      cases declared : p.fallback with
      | none => rfl
      | some value =>
        exact (Json.argument?_toJson (finite p (List.mem_of_getElem? place) value declared)).symm

/-- A command with a word to choose and a number that can be left out. -/
def wave : Command where
  name := "wave"
  aliases := []
  description := ""
  required := [.plain "mode" (.choice ["pulse", "sine"])]
  optional := [.withFallback "size" .number (.number 2.5)]
  action := .line

/-- Called with a word, it has that word, which the schema lists, and the number in the schema. -/
theorem inputSchema_agrees_with_check_of_wave :
    let mode : Param := .plain "mode" (.choice ["pulse", "sine"])
    let size : Param := .withFallback "size" .number (.number 2.5)
    let values := (wave.check ["sine"]).values
    build [wave] = .ok ⟨[wave]⟩ ∧
      (∀ p ∈ wave.params, ∀ value, p.fallback = some value → value.IsFinite) ∧
      (wave.check ["sine"]).isOk = true ∧
      (∃ value, values.get? mode.name = some value ∧ mode.schema.Describes value) ∧
      values.get? size.name = (size.schema.field? "default").bind Json.argument? := by
  intro mode size values
  have built : build [wave] = .ok ⟨[wave]⟩ := by rfl
  have finite : ∀ p ∈ wave.params, ∀ value, p.fallback = some value → value.IsFinite := by
    intro p among value declared
    rcases List.mem_cons.mp among with rfl | later
    · cases declared
    · obtain rfl := List.mem_singleton.mp later
      cases declared
      show (2.5 : Float).isFinite = true
      decide +kernel
  have ok : (wave.check ["sine"]).isOk = true := by decide
  obtain ⟨_, _, -, -, -, -, -, checked⟩ :=
    inputSchema_agrees_with_check built List.mem_cons_self finite
  obtain ⟨-, -, placed⟩ := checked ["sine"] ok
  obtain ⟨value, -, found, described⟩ := (placed 0 mode rfl).1 "sine" rfl
  exact ⟨built, finite, ok, ⟨value, found, described⟩, (placed 1 size rfl).2 rfl⟩

end Registry

end Linework
