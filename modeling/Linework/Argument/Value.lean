import Linework.Json.Basic

/-!
# `Linework.Argument.Value`: values of arguments, by name

A checked argument is a text, a number or a truth value. `Arguments` holds the
values of one command line under the names of their parameters, in the order in
which the names first came up; a value inserted again under a name takes the
place of the former one.
-/

set_option autoImplicit false

namespace Linework

/-- The value of an argument. -/
inductive ArgValue where
  | text (value : String)
  | number (value : Float)
  | truth (value : Bool)
  deriving Repr

namespace ArgValue

/-- The value as a usage line shows it. -/
def display : ArgValue → String
  | text value => value
  | number value => formatNumber value
  | truth value => if value then "true" else "false"

/-- The value as JSON. -/
def toJson : ArgValue → Json
  | text value => .text value
  | number value => .ofFloat value
  | truth value => .bool value

/-- The number, if the value is one. -/
def asNumber? : ArgValue → Option Float
  | number value => some value
  | _ => none

/-- The text, if the value is one. -/
def asText? : ArgValue → Option String
  | text value => some value
  | _ => none

/-- The truth value, if the value is one. -/
def asTruth? : ArgValue → Option Bool
  | truth value => some value
  | _ => none

end ArgValue

/-- Values under names, in the order of the names' first appearance. -/
structure Arguments where
  entries : List (String × ArgValue)
  deriving Repr

namespace Arguments

/-- No values. -/
def empty : Arguments := ⟨[]⟩

/-- Puts a value under a name among entries. -/
def insertEntry (name : String) (value : ArgValue) :
    List (String × ArgValue) → List (String × ArgValue)
  | [] => [(name, value)]
  | (n, v) :: rest =>
    if n = name then (n, value) :: rest else (n, v) :: insertEntry name value rest

/-- Puts a value under a name. A name in use keeps its position. -/
def insert (args : Arguments) (name : String) (value : ArgValue) : Arguments :=
  ⟨insertEntry name value args.entries⟩

/-- The values inserted one after another. -/
def ofList (entries : List (String × ArgValue)) : Arguments :=
  entries.foldl (fun args (name, value) => args.insert name value) empty

/-- The value under a name. -/
def get? (args : Arguments) (name : String) : Option ArgValue :=
  args.entries.lookup name

/-- The number under a name. -/
def number? (args : Arguments) (name : String) : Option Float :=
  (args.get? name).bind ArgValue.asNumber?

/-- The text under a name. -/
def text? (args : Arguments) (name : String) : Option String :=
  (args.get? name).bind ArgValue.asText?

/-- The truth value under a name. -/
def truth? (args : Arguments) (name : String) : Option Bool :=
  (args.get? name).bind ArgValue.asTruth?

end Arguments

end Linework
