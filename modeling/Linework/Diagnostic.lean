import Linework.Json.Basic

/-!
# `Linework.Diagnostic`: what can be wrong with a script line

A diagnostic names one problem of one line. Its `message` is the hint shown next
to the line, so the wording is part of what the program promises. Diagnostics
never stop the program; they stop the pass.
-/

set_option autoImplicit false

namespace Linework

/-- A problem with a script line. -/
inductive Diagnostic where
  /-- A required parameter got no token. -/
  | missingArgument (name : String)
  /-- A token is no number literal. -/
  | notANumber (name token : String)
  /-- A token is none of the words that the parameter takes. -/
  | notInOptions (name token : String) (options : List String)
  /-- A token is no truth value. -/
  | notABoolean (name token : String)
  /-- There are more tokens than parameters. -/
  | surplusArguments (count : Nat)
  /-- No command has this name. -/
  | unknownCommand (name : String)
  deriving DecidableEq, Repr

namespace Diagnostic

/-- The hint that reports the problem. -/
def message : Diagnostic → String
  | missingArgument name => "argument missing: " ++ name
  | notANumber name token => name ++ ": '" ++ token ++ "' is not a number"
  | notInOptions name token options =>
    name ++ ": '" ++ token ++ "' is not in " ++ ",".intercalate options
  | notABoolean name token =>
    name ++ ": '" ++ token ++ "' is not a boolean (true/false, 1/0)"
  | surplusArguments count => numeral count ++ " too many arguments"
  | unknownCommand name => "unknown command '" ++ name ++ "'"

/-- The problem as JSON: its kind, then what it names. -/
def toJson : Diagnostic → Json
  | missingArgument name =>
    .record [("kind", .text "missing_argument"), ("name", .text name)]
  | notANumber name token =>
    .record [("kind", .text "not_a_number"), ("name", .text name), ("token", .text token)]
  | notInOptions name token options =>
    .record [("kind", .text "not_in_options"), ("name", .text name), ("token", .text token),
      ("options", .texts options)]
  | notABoolean name token =>
    .record [("kind", .text "not_a_boolean"), ("name", .text name), ("token", .text token)]
  | surplusArguments count =>
    .record [("kind", .text "surplus_arguments"), ("count", .ofNat count)]
  | unknownCommand name =>
    .record [("kind", .text "unknown_command"), ("name", .text name)]

end Diagnostic

end Linework
