import Linework.Json.Parser
import Linework.Json.Printer
import Linework.Storage.Document
import Linework.Storage.Path

/-!
# `Linework.Storage.Settings`: the settings file

Settings are one JSON object. Only the version has to be there; every other field
has a default. Fields that are not known are passed over, a known field must not
come twice, and numbers must be integers of their range. An array of the values
in order is read as well. Settings of a newer version are refused, so that they
are never taken for something they are not.
-/

set_option autoImplicit false

namespace Linework

/-- What the user has set. -/
structure Settings where
  version : UInt32
  /-- The canvas, in whose middle the origin begins. -/
  canvasWidth : UInt32
  canvasHeight : UInt32
  /-- Seconds that one request may take. -/
  fetchTimeout : UInt64
  /-- Seconds that a run waits for its pictures. -/
  settleTimeout : UInt64
  /-- How the program introduces itself over the network. -/
  userAgent : String
  /-- The document opened or saved last. -/
  lastDocument : Option String
  deriving DecidableEq, Repr

namespace Settings

/-- The newest version that can be read. -/
def supportedVersion : UInt32 := 1

/-- The name and release that the program goes by. -/
def release : String := "0.1.0"

/-- The settings of a user who set nothing. -/
def initial : Settings where
  version := supportedVersion
  canvasWidth := 800
  canvasHeight := 600
  fetchTimeout := 30
  settleTimeout := 10
  userAgent := "sketchline/" ++ release
  lastDocument := none

/-- The fields of a settings object, in order. -/
def fieldNames : List String :=
  ["version", "canvas_width", "canvas_height", "fetch_timeout_secs", "settle_timeout_secs",
    "user_agent", "last_document"]

/-- The document as JSON; none is `null`. -/
def documentJson : Option String → Json
  | some path => .text path
  | none => .null

/-- The fields with their values, in order. -/
def fields (s : Settings) : List (String × Json) :=
  [("version", .ofNat s.version.toNat), ("canvas_width", .ofNat s.canvasWidth.toNat),
    ("canvas_height", .ofNat s.canvasHeight.toNat),
    ("fetch_timeout_secs", .ofNat s.fetchTimeout.toNat),
    ("settle_timeout_secs", .ofNat s.settleTimeout.toNat),
    ("user_agent", .text s.userAgent), ("last_document", documentJson s.lastDocument)]

/-- The settings as JSON. -/
def toJson (s : Settings) : Json := .record s.fields

/-! ## Reading -/

/-- A 32-bit number. -/
def word32? (v : Json) : Option UInt32 :=
  v.natural?.bind fun n => if n < UInt32.size then some (UInt32.ofNat n) else none

/-- A 64-bit number. -/
def word64? (v : Json) : Option UInt64 :=
  v.natural?.bind fun n => if n < UInt64.size then some (UInt64.ofNat n) else none

/-- A document; `null` is none. -/
def document? : Json → Option (Option String)
  | .null => some none
  | v => v.text?.map some

/-- The value of a field that may be absent. -/
def fieldOr {α : Type} (read : Json → Option α) (fallback : α) : Option Json → Option α
  | none => some fallback
  | some v => read v

/-- The settings that values make up, in the order of the fields; an absent value
stands for its default, and only the version has none. -/
def ofValues? : List (Option Json) → Option Settings
  | [some version, width, height, fetch, settle, agent, document] => do
    return {
      version := ← word32? version
      canvasWidth := ← fieldOr word32? initial.canvasWidth width
      canvasHeight := ← fieldOr word32? initial.canvasHeight height
      fetchTimeout := ← fieldOr word64? initial.fetchTimeout fetch
      settleTimeout := ← fieldOr word64? initial.settleTimeout settle
      userAgent := ← fieldOr Json.text? initial.userAgent agent
      lastDocument := ← fieldOr document? initial.lastDocument document }
  | _ => none

/-- Fields under the texts that their names denote. -/
def namedFields? : List (String × Json) → Option (List (String × Json))
  | [] => some []
  | (literal, v) :: rest =>
    match Json.unquote? literal, namedFields? rest with
    | some name, some named => some ((name, v) :: named)
    | _, _ => none

/-- The value of a field, if there is one. More than one is an error. -/
def value? (named : List (String × Json)) (name : String) : Option (Option Json) :=
  match named.filter fun field => field.1 = name with
  | [] => some none
  | [field] => some (some field.2)
  | _ => none

/-- The values of the known fields of an object. -/
def values? (named : List (String × Json)) : List String → Option (List (Option Json))
  | [] => some []
  | name :: rest =>
    match value? named name, values? named rest with
    | some v, some vs => some (v :: vs)
    | _, _ => none

/-- The settings that a JSON value denotes. -/
def ofJson? : Json → Option Settings
  | .object fields => do
    let named ← namedFields? fields
    let vs ← values? named fieldNames
    ofValues? vs
  -- A row of values is taken for those of the fields in order, as far as it goes.
  | .array items =>
    if items.length ≤ fieldNames.length then
      ofValues? (items.map some ++ List.replicate (fieldNames.length - items.length) none)
    else none
  | _ => none

/-- The settings that a text denotes. -/
def parse? (text : String) : Option Settings :=
  (Json.parse? text).bind ofJson?

/-! ## The file -/

/-- Why there are no settings to be had from a file that exists. -/
inductive LoadError where
  /-- The file could not be read. -/
  | io (failure : Failure)
  /-- The text is not that of settings. -/
  | malformed
  /-- The settings are of a version to come. -/
  | newer (version : UInt32)

namespace LoadError

/-- The failure to report. -/
def toFailure : LoadError → Failure
  | io failure => failure
  | malformed => .settings "the file does not hold settings"
  | newer version =>
    .settings ("settings version " ++ numeral version.toNat
      ++ " is newer than supported version " ++ numeral supportedVersion.toNat)

end LoadError

/-- The settings that a text denotes, if they can be used. -/
def accept (text : String) : Except LoadError Settings :=
  match parse? text with
  | none => .error .malformed
  | some s => if supportedVersion < s.version then .error (.newer s.version) else .ok s

/-- The settings kept in a directory, if there is a file of them. -/
def load (dir : String) : FileProgram (Except LoadError (Option Settings)) := do
  if ← FileProgram.pathExists (Places.settingsPath dir) then
    match ← Document.readText (Places.settingsPath dir) with
    | .ok text => return (accept text).map some
    | .error failure => return .error (.io failure)
  else return .ok none

/-- The settings kept in a directory, and the defaults if none can be had. -/
def loadOrInitial (dir : String) : FileProgram Settings := do
  match ← load dir with
  | .ok (some s) => return s
  | .ok none => return initial
  | .error _ => return initial

/-- Keeps settings in a directory, which is made if need be. -/
def save (dir : String) (s : Settings) : FileProgram (Except OsError Unit) :=
  Document.andThen (Document.createDirectories dir)
    (Document.atomicWrite (Places.settingsPath dir) s.toJson.pretty.toUTF8)

/-! ## Schema -/

/-- The schema of a number field of a width in bits. -/
def wordSchema (bits : String) : List (String × Json) :=
  [("type", .text "integer"), ("format", .text ("uint" ++ bits)), ("minimum", .ofFloat 0.0)]

/-- The schema of each field, in order. -/
def fieldSchemas : List (String × List (String × Json)) :=
  [("version", wordSchema "32"),
    ("canvas_width", ("description", .text "Canvas size used to centre the origin on start.")
      :: ("default", .ofNat initial.canvasWidth.toNat) :: wordSchema "32"),
    ("canvas_height", ("default", .ofNat initial.canvasHeight.toNat) :: wordSchema "32"),
    ("fetch_timeout_secs",
      ("description", .text "Per-request timeout for reference downloads.")
        :: ("default", .ofNat initial.fetchTimeout.toNat) :: wordSchema "64"),
    ("settle_timeout_secs",
      ("description", .text "How long headless runs wait for references before giving up.")
        :: ("default", .ofNat initial.settleTimeout.toNat) :: wordSchema "64"),
    ("user_agent", [("type", .text "string"), ("default", .text initial.userAgent)]),
    ("last_document",
      [("description", .text "Document most recently opened or saved."),
        ("default", documentJson initial.lastDocument), ("type", .texts ["string", "null"])])]

/-- The schema of the settings file. -/
def schema : Json :=
  .sortedRecord [
    ("$schema", .text "http://json-schema.org/draft-07/schema#"),
    ("title", .text "SketchSettings"),
    ("description", .text "Settings stored in the OS config directory as `settings.json`."),
    ("type", .text "object"),
    ("required", .texts ["version"]),
    ("properties", .sortedRecord (fieldSchemas.map fun (name, fs) => (name, .sortedRecord fs)))]

end Settings

end Linework
