import Linework.Argument.Value

/-!
# `Linework.Argument.Param`: parameters of commands

A command takes its arguments by position. A parameter names one position, says
what kind of value belongs there, and may declare the value it takes when the
line ends before it. A declared value is used as it is, whatever the kind.
-/

set_option autoImplicit false

namespace Linework

/-- What kind of value a parameter takes. -/
inductive ParamKind where
  /-- Any token, as it is. -/
  | text
  /-- A number literal. -/
  | number
  /-- One of the given words. -/
  | choice (options : List String)
  /-- `true` or `1`, `false` or `0`. -/
  | truth
  deriving DecidableEq, Repr

namespace ParamKind

/-- The kind in words. -/
def label : ParamKind → String
  | text => "string"
  | number => "number"
  | choice options => "one of " ++ "/".intercalate options
  | truth => "boolean"

/-- The kind as JSON. -/
def toJson : ParamKind → Json
  | text => .record [("type", .text "string")]
  | number => .record [("type", .text "number")]
  | choice options => .record [("type", .text "enum"), ("options", .texts options)]
  | truth => .record [("type", .text "boolean")]

end ParamKind

/-- One position of a command's arguments. -/
structure Param where
  name : String
  kind : ParamKind
  /-- The value used when the line ends before this position. -/
  fallback : Option ArgValue
  deriving Repr

namespace Param

/-- A parameter without a declared value. -/
def plain (name : String) (kind : ParamKind) : Param := ⟨name, kind, none⟩

/-- A parameter with a declared value. -/
def withFallback (name : String) (kind : ParamKind) (value : ArgValue) : Param :=
  ⟨name, kind, some value⟩

/-- How a usage line shows a required parameter. -/
def requiredUsage (p : Param) : String := "<" ++ p.name ++ ">"

/-- How a usage line shows an optional parameter. -/
def optionalUsage (p : Param) : String :=
  match p.fallback with
  | some value => "[" ++ p.name ++ "=" ++ value.display ++ "]"
  | none => "[" ++ p.name ++ "]"

/-- The parameter as JSON; a declared value comes last. -/
def toJson (p : Param) : Json :=
  .record ([("name", .text p.name), ("kind", p.kind.toJson)]
    ++ (match p.fallback with
      | some value => [("default", value.toJson)]
      | none => []))

end Param

end Linework
