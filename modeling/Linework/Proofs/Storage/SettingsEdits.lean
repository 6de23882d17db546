import Linework.Proofs.Storage.SettingsFile

/-!
# `Linework.Proofs.Storage.SettingsEdits`: settings that were saved and edited

Saved settings are loaded as they were saved, and they can be edited in between. A text is an
edition of settings (`Edited`) if it is an object with the fields that were written, some of them
taken out, in any order and among any fields that settings do not have. It is loaded as the
settings with the default in place of each field that was taken out (`without`). Only the version
has no default, so that it has to stay.

A field is looked up by its name, so its place does not matter (`value?_of_perm`), nor do fields of
other names (`value?_append`).
-/

set_option autoImplicit false

namespace Linework

open FileSystem Document

namespace Settings

/-! ## Fields by their names -/

section Fields

variable {named others : List (String × Json)} {name : String}

/-- A field has the value that it has, wherever it stands. -/
theorem value?_of_perm {named' : List (String × Json)} (perm : named.Perm named') (name : String) :
    value? named name = value? named' name := by
  -- A field counts if it is the only one of its name, and to be the only one does not depend on
  -- order.
  have fields := perm.filter fun field => field.1 = name
  unfold value?
  split
  · rename_i none
    rw [none] at fields
    rw [fields.nil_eq.symm]
  · rename_i field one
    rw [one] at fields
    rw [fields.singleton_eq.symm]
  · -- There are two fields of the name, and so there are in the other order.
    rename_i notNone notOne
    split
    · rename_i none
      rw [none] at fields
      exact absurd fields.eq_nil notNone
    · rename_i field one
      rw [one] at fields
      exact absurd fields.eq_singleton (notOne field)
    · rfl

/-- Fields of other names are passed over. -/
theorem value?_append (h : ∀ field ∈ others, field.1 ≠ name) :
    value? (named ++ others) name = value? named name := by
  have noOther : others.filter (fun field => field.1 = name) = [] := by
    simpa [List.filter_eq_nil_iff] using fun a b => h (a, b)
  rw [value?, List.filter_append, noOther, List.append_nil, value?]

/-- A field that was taken out has no value, and the others keep theirs. -/
theorem value?_filter_not_mem (named : List (String × Json)) (removed : List String)
    (name : String) :
    value? (named.filter fun field => field.1 ∉ removed) name
      = if name ∈ removed then some none else value? named name := by
  unfold value?
  rw [List.filter_filter]
  -- The fields of a name are taken out together or not at all.
  split_ifs with out
  · have gone : (named.filter fun field =>
        decide (field.1 = name) && decide (field.1 ∉ removed)) = [] := by
      simp only [List.filter_eq_nil_iff, Bool.and_eq_true, decide_eq_true_eq, not_and, not_not]
      rintro field - rfl
      exact out
    rw [gone]
  · have kept : (named.filter fun field =>
        decide (field.1 = name) && decide (field.1 ∉ removed))
          = named.filter fun field => field.1 = name := by
      refine List.filter_congr fun field _ => ?_
      by_cases same : field.1 = name
      · simp [same, out]
      · simp [same]
    rw [kept]

end Fields

/-! ## Editions -/

/-- The settings with the default in place of each field that was taken out. The version has no
default. -/
def without (s : Settings) (removed : List String) : Settings where
  version := s.version
  canvasWidth := if "canvas_width" ∈ removed then initial.canvasWidth else s.canvasWidth
  canvasHeight := if "canvas_height" ∈ removed then initial.canvasHeight else s.canvasHeight
  fetchTimeout := if "fetch_timeout_secs" ∈ removed then initial.fetchTimeout else s.fetchTimeout
  settleTimeout :=
    if "settle_timeout_secs" ∈ removed then initial.settleTimeout else s.settleTimeout
  userAgent := if "user_agent" ∈ removed then initial.userAgent else s.userAgent
  lastDocument := if "last_document" ∈ removed then initial.lastDocument else s.lastDocument

/-- Settings from which nothing was taken out are as they were. -/
theorem without_nil (s : Settings) : s.without [] = s := by
  simp [without]

/-- The fields of an edition: those that are written for the settings, but some were taken out, in
any order and among others that settings do not have. -/
def EditedFields (s : Settings) (removed : List String) (named : List (String × Json)) : Prop :=
  ∃ others, named.Perm ((s.fields.filter fun field => field.1 ∉ removed) ++ others) ∧
    ∀ field ∈ others, field.1 ∉ fieldNames

/-- The text of an edition. The names of its fields may be written with any escapes. -/
def Edited (s : Settings) (removed : List String) (text : String) : Prop :=
  ∃ literals named, Json.parse? text = some (.object literals) ∧
    namedFields? literals = some named ∧ s.EditedFields removed named

section Editions

variable {s : Settings} {removed : List String} {named : List (String × Json)} {text : String}

/-- In an edition a field is absent if it was taken out, and is as it was written otherwise. -/
theorem EditedFields.value? (edited : s.EditedFields removed named) {name : String}
    (known : name ∈ fieldNames) :
    Settings.value? named name
      = if name ∈ removed then some none else Settings.value? s.fields name := by
  obtain ⟨others, perm, unknown⟩ := edited
  have noOther : ∀ field ∈ others, field.1 ≠ name := by
    rintro field among rfl
    exact unknown field among known
  rw [value?_of_perm perm, value?_append noOther, value?_filter_not_mem]

/-- A field that is absent is read as its default, and any other as its value. -/
theorem fieldOr_ite {α : Type} {read : Json → Option α} {fallback a : α} {v : Json}
    (h : read v = some a) (out : Prop) [Decidable out] :
    fieldOr read fallback (if out then none else some v)
      = some (if out then fallback else a) := by
  split_ifs
  · rfl
  · exact h

/-- The values of an edition are those of the settings, but for the fields taken out. -/
theorem EditedFields.values? (edited : s.EditedFields removed named) {names : List String}
    (known : ∀ name ∈ names, name ∈ fieldNames) {vs : List (Option Json)}
    (written : Settings.values? s.fields names = some vs) :
    Settings.values? named names
      = some (names.zipWith (fun name v => if name ∈ removed then none else v) vs) := by
  -- Each name is looked up on its own, so this goes name by name.
  induction names generalizing vs with
  | nil => rfl
  | cons name names ih =>
    obtain ⟨first, others⟩ := List.forall_mem_cons.mp known
    simp only [Settings.values?] at written ⊢
    split at written
    · rename_i v vs one rest
      cases written
      rw [edited.value? first, one, ih others rest]
      split_ifs with out <;> simp [out]
    · cases written

/-- What is left of the fields makes up the settings with the defaults of those taken out. -/
theorem ofValues?_zipWith (kept : "version" ∉ removed) :
    ofValues? (fieldNames.zipWith (fun name v => if name ∈ removed then none else v)
      (s.fields.map fun field => some field.2)) = some (s.without removed) := by
  simp [fieldNames, fields, ofValues?, kept, fieldOr_ite, word32?_ofNat, word64?_ofNat,
    document?_documentJson, Json.text?_text, without]

/-- An edition is read as the settings with the defaults of what was taken out. -/
theorem parse?_of_edited (edited : s.Edited removed text) (kept : "version" ∉ removed) :
    parse? text = some (s.without removed) := by
  obtain ⟨literals, named, object, names, fields⟩ := edited
  have values := fields.values? (fun _ known => known) s.values?_fields
  simp [parse?, object, ofJson?, names, values, ofValues?_zipWith kept]

/-- The version of an edition decides whether it is accepted, as that of the settings would. -/
theorem acceptBytes_of_edited (edited : s.Edited removed text) (kept : "version" ∉ removed) :
    acceptBytes text.toUTF8
      = if supportedVersion < s.version then .error (.newer s.version)
        else .ok (s.without removed) := by
  rw [acceptBytes, fromUTF8?_toUTF8]
  -- The version is compared after the defaults are filled in, and it has none.
  show accept text = _
  rw [accept, parse?_of_edited edited kept]
  rfl

/-- The record of such fields is an edition. -/
theorem edited_record (fields : s.EditedFields removed named)
    (readable : ∀ field ∈ named, Json.Readable field.2) :
    s.Edited removed (Json.record named).pretty :=
  ⟨_, named, Json.parse?_pretty (Json.readable_record readable), namedFields?_map_quote named,
    fields⟩

/-- What is written for settings is an edition of them from which nothing was taken out. -/
theorem edited_toJson (s : Settings) : s.Edited [] s.toJson.pretty := by
  refine ⟨_, s.fields, Json.parse?_pretty s.readable_toJson, namedFields?_map_quote s.fields,
    [], ?_, by simp⟩
  simp

end Editions

/-! ## The settings file -/

/-- Whatever there is in place of the settings file, what is loaded is of no newer version. -/
theorem version_of_load {dir : String} {fs : FileSystem} {s : Settings}
    (loaded : ((load dir).run fs).1 = .ok (some s)) : ¬ supportedVersion < s.version := by
  cases held : fs.read (Places.settingsPath dir) with
  | error e =>
    -- Whether there is something at the path or not, no settings are had from it.
    simp only [load, FileProgram.run_bind, FileProgram.pathExists, FileProgram.run] at loaded
    cases found : ((fs.find (Places.settingsPath dir)).map Node.isDirectory).isOk <;>
      simp [found, readText, held, FileProgram.run_bind, FileProgram.run] at loaded
  | ok data =>
    have accepted : (acceptBytes data).map some = .ok (some s) := by
      rw [← loaded, run_load held]
    have initially := version_loadOrInitial data
    cases same : acceptBytes data with
    | error e =>
      rw [same] at accepted
      cases accepted
    | ok found =>
      rw [same] at accepted initially
      cases accepted
      exact initially

/-- Settings that were saved are loaded as they were, and any edition of them with the default in
place of what was taken out. If they are of a newer version, they are refused, edited or not, and no
text at all is loaded as settings of a newer version. -/
theorem settings_round_trip {s : Settings} {dir : String} {fs saved : FileSystem}
    (went : (save dir s).run fs = (.ok (), saved)) :
    (load dir).run saved
        = (if supportedVersion < s.version then .error (.newer s.version)
            else .ok (some s), saved) ∧
      (∀ (removed : List String) (text : String) (edition : FileSystem), "version" ∉ removed →
        s.Edited removed text → edition.read (Places.settingsPath dir) = .ok text.toUTF8 →
        (load dir).run edition
          = (if supportedVersion < s.version then .error (.newer s.version)
              else .ok (some (s.without removed)), edition)) ∧
      ∀ (edition : FileSystem) (found : Settings),
        ((load dir).run edition).1 = .ok (some found) → ¬ supportedVersion < found.version := by
  have loaded (removed : List String) (text : String) (edition : FileSystem)
      (kept : "version" ∉ removed) (edited : s.Edited removed text)
      (held : edition.read (Places.settingsPath dir) = .ok text.toUTF8) :
      (load dir).run edition
        = (if supportedVersion < s.version then .error (.newer s.version)
            else .ok (some (s.without removed)), edition) := by
    -- An edition is judged by its text, wherever it is kept.
    rw [run_load held, acceptBytes_of_edited edited kept]
    split_ifs <;> rfl
  refine ⟨?_, loaded, fun _ _ => version_of_load⟩
  -- What was saved is the edition from which nothing was taken out.
  have whole := loaded [] _ saved (by simp) s.edited_toJson (read_of_save went)
  rwa [without_nil] at whole

/-- Settings with a document are saved. Then all fields but two are taken out of their file, these
two change places, and a field is put in that settings do not have. -/
theorem editedSettings_loaded :
    let s : Settings := { initial with canvasWidth := 320, lastDocument := some "h\"ouse" }
    let directory : FileSystem := ⟨[(["cfg"], .directory)], []⟩
    let text := (Json.record [("last_document", .text "h\"ouse"), ("zoom", .bool true),
      ("version", .ofNat 1)]).pretty
    let edition : FileSystem :=
      ⟨[(["cfg"], .directory), (["cfg", "settings.json"], .file text.toUTF8)], []⟩
    ((load "cfg").run ((save "cfg" s).run directory).2).1 = .ok (some s) ∧
      ((load "cfg").run edition).1
        = .ok (some { initial with lastDocument := some "h\"ouse" }) := by
  intro s directory text edition
  obtain ⟨saved, went⟩ : ∃ saved, (save "cfg" s).run directory = (.ok (), saved) := by
    have ok : ((save "cfg" s).run directory).1.isOk = true := by decide +kernel
    cases answer : ((save "cfg" s).run directory).1 with
    | error e =>
      rw [answer] at ok
      cases ok
    | ok done => exact ⟨_, Prod.ext answer rfl⟩
  obtain ⟨whole, editions, -⟩ := settings_round_trip went
  have edited : s.Edited ["canvas_width", "canvas_height", "fetch_timeout_secs",
      "settle_timeout_secs", "user_agent"] text := by
    refine edited_record ⟨[("zoom", .bool true)], ?_, by simp [fieldNames]⟩ ?_
    · -- The version goes from the last place to the first one.
      simpa [fields, s, initial, supportedVersion, documentJson]
        using List.perm_append_singleton ("version", .ofNat 1)
          [("last_document", Json.text "h\"ouse"), ("zoom", .bool true)]
    · simp [Json.readable_text, Json.readable_ofNat, Json.Readable]
  have held : edition.read (Places.settingsPath "cfg") = .ok text.toUTF8 := by decide +kernel
  rw [went]
  have edited := editions _ text edition (by decide) edited held
  exact ⟨congrArg Prod.fst whole, congrArg Prod.fst edited⟩

end Settings

end Linework
