import Linework.Json.Basic

/-!
# `Linework.Json.Parser`: reading JSON

Strict JSON: blanks are the space, the tab and the two line breaks; a number has
no leading zero and no bare point; nothing follows the value. Every function
takes characters and gives back what it read together with the characters left.
Values nest, so the three functions that read them carry a bound on the calls they
may still make. Reading a character takes at most two of them, so `parse?` starts
with one more than twice the length of the text.
-/

set_option autoImplicit false

namespace Linework.Json

/-- The blanks between the tokens of JSON. -/
def isGap (c : Char) : Bool :=
  c = ' ' || c = '\n' || c = '\t' || c = '\r'

/-- The characters from the next token on. -/
def skipGap (cs : List Char) : List Char :=
  cs.dropWhile isGap

/-- The characters of a string up to its closing quote, and those after it. A
backslash takes the next character with it. -/
def literalEnd? : List Char → Option (List Char × List Char)
  | [] => none
  | '"' :: rest => some ([], rest)
  | '\\' :: c :: rest => (literalEnd? rest).map fun (cs, left) => ('\\' :: c :: cs, left)
  | c :: rest => (literalEnd? rest).map fun (cs, left) => (c :: cs, left)

/-- A string literal after its opening quote. -/
def literal? (cs : List Char) : Option (String × List Char) :=
  match literalEnd? cs with
  | some (body, left) => if isLiteral body then some (String.ofList body, left) else none
  | none => none

/-- One or more digits. -/
def digitRun? (cs : List Char) : Option (List Char × List Char) :=
  let ds := cs.takeWhile Char.isDigit
  if ds.isEmpty then none else some (ds, cs.dropWhile Char.isDigit)

/-- The whole part of a number: a zero alone, or digits that begin with another. -/
def wholePart? : List Char → Option (List Char × List Char)
  | '0' :: rest => some (['0'], rest)
  | cs => digitRun? cs

/-- The fraction of a number, if a point follows. -/
def fractionPart? : List Char → Option (List Char × List Char)
  | '.' :: rest => (digitRun? rest).map fun (ds, left) => ('.' :: ds, left)
  | cs => some ([], cs)

/-- The exponent of a number, if its letter follows. -/
def exponentPart? : List Char → Option (List Char × List Char)
  | c :: rest =>
    if c = 'e' ∨ c = 'E' then
      match rest with
      | m :: more =>
        if m = '+' ∨ m = '-' then (digitRun? more).map fun (ds, left) => (c :: m :: ds, left)
        else (digitRun? rest).map fun (ds, left) => (c :: ds, left)
      | [] => none
    else some ([], c :: rest)
  | [] => some ([], [])

/-- A number without its sign. -/
def magnitude? (cs : List Char) : Option (List Char × List Char) := do
  -- After a zero no further digit is read, so that a zero in front leaves digits behind.
  let (whole, cs) ← wholePart? cs
  let (fraction, cs) ← fractionPart? cs
  let (exponent, cs) ← exponentPart? cs
  return (whole ++ fraction ++ exponent, cs)

/-- A number. -/
def number? : List Char → Option (List Char × List Char)
  | '-' :: rest => (magnitude? rest).map fun (cs, left) => ('-' :: cs, left)
  | cs => magnitude? cs

/-- A value that has no parts. -/
def scalar? : List Char → Option (Json × List Char)
  | 'n' :: 'u' :: 'l' :: 'l' :: rest => some (.null, rest)
  | 't' :: 'r' :: 'u' :: 'e' :: rest => some (.bool true, rest)
  | 'f' :: 'a' :: 'l' :: 's' :: 'e' :: rest => some (.bool false, rest)
  | '"' :: rest => (literal? rest).map fun (s, left) => (.string s, left)
  | cs => (number? cs).map fun (n, left) => (.number (String.ofList n), left)

/-- A field's name, its colon and the gap after it. -/
def fieldName? (cs : List Char) : Option (String × List Char) :=
  match cs with
  | '"' :: rest =>
    match literal? rest with
    | some (name, left) =>
      match skipGap left with
      | ':' :: value => some (name, value)
      | _ => none
    | none => none
  | _ => none

mutual
/-- A value, after any gap before it. -/
def value? : Nat → List Char → Option (Json × List Char)
  | 0, _ => none
  | fuel + 1, cs =>
    match skipGap cs with
    | '[' :: rest =>
      match skipGap rest with
      | ']' :: left => some (.array [], left)
      | _ => (items? fuel rest).map fun (vs, left) => (.array vs, left)
    | '{' :: rest =>
      match skipGap rest with
      | '}' :: left => some (.object [], left)
      | _ => (fields? fuel rest).map fun (fs, left) => (.object fs, left)
    | other => scalar? other
/-- Items up to the closing bracket; there is at least one. -/
def items? : Nat → List Char → Option (List Json × List Char)
  | 0, _ => none
  | fuel + 1, cs =>
    match value? fuel cs with
    | none => none
    | some (v, left) =>
      match skipGap left with
      | ']' :: rest => some ([v], rest)
      | ',' :: rest => (items? fuel rest).map fun (vs, left) => (v :: vs, left)
      | _ => none
/-- Fields up to the closing brace; there is at least one. -/
def fields? : Nat → List Char → Option (List (String × Json) × List Char)
  | 0, _ => none
  | fuel + 1, cs =>
    match fieldName? (skipGap cs) with
    | none => none
    | some (name, afterColon) =>
      match value? fuel afterColon with
      | none => none
      | some (v, left) =>
        match skipGap left with
        | '}' :: rest => some ([(name, v)], rest)
        | ',' :: rest => (fields? fuel rest).map fun (fs, left) => ((name, v) :: fs, left)
        | _ => none
end

/-- Reads a text that is one JSON value, gaps around it aside. -/
def parse? (s : String) : Option Json :=
  match value? (2 * s.length + 1) s.toList with
  -- After the value there may be a gap and nothing else.
  | some (v, left) => if (skipGap left).isEmpty then some v else none
  | none => none

end Linework.Json
