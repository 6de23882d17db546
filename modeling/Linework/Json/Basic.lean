import Linework.Json.Quoted
import Linework.Number.Layout

/-!
# `Linework.Json`: JSON values

Numbers and strings are kept as literals, the way they are written; what they
denote is asked of the literal (`Json.text?`, `Json.natural?`). So a value that
is only carried along never loses a digit, a string that denotes no text is still
a value, and reading what was printed gives the same value back.

Values are built with `text`, `ofNat`, `ofFloat` and `record`, which write the
literals. An object's fields stand in the order given; `sortedRecord` orders them
by name, and a name given twice keeps the last value.
-/

set_option autoImplicit false

namespace Linework

/-- A JSON value. Strings and field names are kept as they stand between their
quotes. -/
inductive Json where
  | null
  | bool (value : Bool)
  | number (literal : String)
  | string (literal : String)
  | array (items : List Json)
  | object (fields : List (String × Json))
  deriving Repr

namespace Json

/-- A string that denotes the given text. -/
def text (s : String) : Json :=
  .string (quote s)

/-- A list of strings. -/
def texts (ss : List String) : Json :=
  .array (ss.map text)

/-- A natural number. -/
def ofNat (n : Nat) : Json :=
  .number (numeral n)

/-- A double; what is not finite has no JSON number and is written `null`. -/
def ofFloat (x : Float) : Json :=
  match Binary64.parts x with
  | .nan => .null
  | .infinite _ => .null
  | .finite negative mantissa scale =>
    let magnitude :=
      if mantissa = 0 then ['0', '.', '0'] else jsonFormat.magnitude x.abs mantissa scale
    .number (String.ofList (if negative then '-' :: magnitude else magnitude))

/-- An object with the given fields, in this order. -/
def record (fields : List (String × Json)) : Json :=
  .object (fields.map fun (name, value) => (quote name, value))

/-- Puts a field among fields ordered by name; one of the same name is replaced. -/
def insertField (name : String) (value : Json) :
    List (String × Json) → List (String × Json)
  | [] => [(name, value)]
  | (n, v) :: rest =>
    if name = n then (name, value) :: rest
    else if name < n then (name, value) :: (n, v) :: rest
    else (n, v) :: insertField name value rest

/-- Fields ordered by name, the last of those that share one. -/
def sortFields (fields : List (String × Json)) : List (String × Json) :=
  fields.foldl (fun sorted (name, value) => insertField name value sorted) []

/-- An object with the given fields, ordered by name. -/
def sortedRecord (fields : List (String × Json)) : Json :=
  record (sortFields fields)

/-- The text that a string denotes. -/
def text? : Json → Option String
  | .string literal => unquote? literal
  | _ => none

/-- The natural number that an integer literal without a sign denotes. -/
def natural? : Json → Option Nat
  | .number literal =>
    if !literal.isEmpty && literal.toList.all Char.isDigit then
      some (Nat.ofDigitChars 10 literal.toList 0)
    else none
  | _ => none

end Json

end Linework
