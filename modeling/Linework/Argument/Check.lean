import Linework.Argument.Param
import Linework.Diagnostic
import Linework.Number.Literal

/-!
# `Linework.Argument.Check`: matching tokens to parameters

Tokens and parameters are matched by position, the required parameters first.
Every token that does not fit its parameter is one diagnostic, in order. A line
that ends among the required parameters adds one for the first of them that got
nothing, and the scan ends there; one that goes past the last parameter adds one
that counts the rest. All problems of a line make up its hint.
-/

set_option autoImplicit false

namespace Linework

/-- What stands between the diagnostics of one line. -/
def hintSeparator : String := " | "

/-- The outcome of matching: the problems found, and every value that fits. -/
structure ArgCheck where
  diagnostics : List Diagnostic
  values : Arguments
  deriving Repr

namespace ArgCheck

/-- Whether every argument was accepted. -/
def isOk (c : ArgCheck) : Bool := c.diagnostics.isEmpty

/-- The problems in one line; empty when there are none. -/
def hint (c : ArgCheck) : String :=
  hintSeparator.intercalate (c.diagnostics.map Diagnostic.message)

end ArgCheck

namespace Param

/-- The value of a token under a parameter, or the reason that it has none. -/
def coerce (p : Param) (token : String) : Except Diagnostic ArgValue :=
  match p.kind with
  | .text => .ok (.text token)
  | .number =>
    match parseNumber token with
    | some value => .ok (.number value)
    | none => .error (.notANumber p.name token)
  | .choice options =>
    if token ∈ options then .ok (.text token)
    else .error (.notInOptions p.name token options)
  | .truth =>
    if token = "true" ∨ token = "1" then .ok (.truth true)
    else if token = "false" ∨ token = "0" then .ok (.truth false)
    else .error (.notABoolean p.name token)

end Param

namespace ArgCheck

/-- Nothing found yet, over values collected so far. -/
def start : ArgCheck := ⟨[], Arguments.empty⟩

/-- Adds the outcome for one parameter that got a token. -/
def take (c : ArgCheck) (p : Param) (token : String) : ArgCheck :=
  match p.coerce token with
  | .ok value => { c with values := c.values.insert p.name value }
  | .error problem => { c with diagnostics := c.diagnostics ++ [problem] }

/-- Adds the declared value of an optional parameter that got no token. -/
def fill (c : ArgCheck) (p : Param) : ArgCheck :=
  match p.fallback with
  | some value => { c with values := c.values.insert p.name value }
  | none => c

/-- Adds a problem. -/
def report (c : ArgCheck) (problem : Diagnostic) : ArgCheck :=
  { c with diagnostics := c.diagnostics ++ [problem] }

/-- Matches tokens to the optional parameters. -/
def scanOptional (c : ArgCheck) : List String → List Param → ArgCheck
  | [], params => params.foldl fill c
  | token :: tokens, [] => c.report (.surplusArguments (token :: tokens).length)
  | token :: tokens, p :: params => (c.take p token).scanOptional tokens params

/-- Matches tokens to the required parameters, and the rest to the optional ones. -/
def scan (c : ArgCheck) : List String → List Param → List Param → ArgCheck
  | tokens, [], optional => c.scanOptional tokens optional
  | [], p :: _, _ => c.report (.missingArgument p.name)
  | token :: tokens, p :: required, optional => (c.take p token).scan tokens required optional

end ArgCheck

/-- Matches tokens to parameters by position. -/
def checkArguments (tokens : List String) (required optional : List Param) : ArgCheck :=
  ArgCheck.start.scan tokens required optional

end Linework
