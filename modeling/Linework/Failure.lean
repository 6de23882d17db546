import Linework.Json.Basic

/-!
# `Linework.Failure`: what can go wrong around a script

A failure is a fault of the surroundings: a command list that contradicts itself,
a picture that cannot be loaded, a file that cannot be read or written. Faults of
a script are `Diagnostic`s instead.
-/

set_option autoImplicit false

namespace Linework

/-- A fault of the surroundings, by cause. -/
inductive Failure where
  /-- A command cannot be registered under one of its names. -/
  | invalidCommand (name reason : String)
  /-- Two commands, or one command twice, go by the same name. -/
  | duplicateCommand (name : String)
  /-- A parameter of a command contradicts itself or another parameter. -/
  | invalidParam (command param reason : String)
  /-- A picture could not be fetched or decoded. -/
  | referenceFailed (url reason : String)
  /-- Requests over the network cannot be made at all. -/
  | httpClient (reason : String)
  /-- Nothing runs that could fetch a picture. -/
  | noRuntime
  /-- A file operation failed. -/
  | io (reason : String)
  /-- The settings file cannot be used. -/
  | settings (reason : String)
  deriving DecidableEq, Repr

namespace Failure

/-- The name of the cause. -/
def code : Failure → String
  | invalidCommand .. => "InvalidCommand"
  | duplicateCommand .. => "DuplicateCommand"
  | invalidParam .. => "InvalidParamSpec"
  | referenceFailed .. => "ReferenceDownloadFailed"
  | httpClient .. => "HttpClient"
  | noRuntime => "NoRuntime"
  | io .. => "Io"
  | settings .. => "Settings"

/-- The sentence shown to the user. -/
def message : Failure → String
  | invalidCommand name reason => "invalid command '" ++ name ++ "': " ++ reason
  | duplicateCommand name => "command name or alias '" ++ name ++ "' is registered twice"
  | invalidParam command param reason =>
    "invalid '" ++ param ++ "' param of command '" ++ command ++ "': " ++ reason
  | referenceFailed url reason => "failed to download '" ++ url ++ "': " ++ reason
  | httpClient reason => "HTTP client error: " ++ reason
  | noRuntime => "no async runtime available for reference downloads"
  | io reason => "I/O error: " ++ reason
  | settings reason => "settings error: " ++ reason

/-- What the failure names, in the order of its sentence's subject. -/
def detail : Failure → List (String × Json)
  | invalidCommand name reason => [("name", .text name), ("message", .text reason)]
  | duplicateCommand name => [("name", .text name)]
  | invalidParam command param reason =>
    [("command", .text command), ("param", .text param), ("message", .text reason)]
  | referenceFailed url reason => [("url", .text url), ("message", .text reason)]
  | httpClient reason => [("message", .text reason)]
  | noRuntime => []
  | io reason => [("message", .text reason)]
  | settings reason => [("message", .text reason)]

/-- The failure as JSON: its code, and what it names, if anything. -/
def toJson (f : Failure) : Json :=
  match f.detail with
  | [] => .record [("code", .text f.code)]
  | fields => .record [("code", .text f.code), ("detail", .record fields)]

end Failure

end Linework
