import Linework.Json.Basic

/-!
# `Linework.Json.Printer`: JSON values as text

Two layouts. `compact` has no blanks at all. `pretty` puts every item and field
on a line of its own, two columns further in for each level, with one space after
the colon; an empty array or object stays on its line.
-/

set_option autoImplicit false

namespace Linework.Json

/-- A string literal in its quotes. -/
def quoted (literal : String) : List Char :=
  '"' :: (literal.toList ++ ['"'])

/-- The text of a value that has no parts, and of an empty array or object. -/
def scalar : Json → List Char
  | .null => ['n', 'u', 'l', 'l']
  | .bool true => ['t', 'r', 'u', 'e']
  | .bool false => ['f', 'a', 'l', 's', 'e']
  | .number literal => literal.toList
  | .string literal => quoted literal
  | .array _ => ['[', ']']
  | .object _ => ['{', '}']

mutual
/-- The text of a value without blanks. -/
def compactChars : Json → List Char
  | .array (v :: rest) => '[' :: (compactChars v ++ compactItems rest)
  | .object ((name, v) :: rest) =>
    '{' :: (quoted name ++ ':' :: (compactChars v ++ compactFields rest))
  | v => scalar v
/-- The items after the first one, and the closing bracket. -/
def compactItems : List Json → List Char
  | [] => [']']
  | v :: rest => ',' :: (compactChars v ++ compactItems rest)
/-- The fields after the first one, and the closing brace. -/
def compactFields : List (String × Json) → List Char
  | [] => ['}']
  | (name, v) :: rest =>
    ',' :: (quoted name ++ ':' :: (compactChars v ++ compactFields rest))
end

/-- A line break and the indentation of a level. -/
def newline (level : Nat) : List Char :=
  '\n' :: List.replicate (2 * level) ' '

mutual
/-- The text of a value at a level, its parts on lines of their own. -/
def prettyChars (level : Nat) : Json → List Char
  | .array (v :: rest) =>
    '[' :: (newline (level + 1) ++ (prettyChars (level + 1) v ++ prettyItems level rest))
  | .object ((name, v) :: rest) =>
    '{' :: (newline (level + 1) ++ (quoted name ++ ':' :: ' ' ::
      (prettyChars (level + 1) v ++ prettyFields level rest)))
  | v => scalar v
/-- The items after the first one, and the closing bracket. -/
def prettyItems (level : Nat) : List Json → List Char
  | [] => newline level ++ [']']
  | v :: rest =>
    ',' :: (newline (level + 1) ++ (prettyChars (level + 1) v ++ prettyItems level rest))
/-- The fields after the first one, and the closing brace. -/
def prettyFields (level : Nat) : List (String × Json) → List Char
  | [] => newline level ++ ['}']
  | (name, v) :: rest =>
    ',' :: (newline (level + 1) ++ (quoted name ++ ':' :: ' ' ::
      (prettyChars (level + 1) v ++ prettyFields level rest)))
end

/-- The text of a value without blanks. -/
def compact (v : Json) : String :=
  String.ofList (compactChars v)

/-- The text of a value over several lines. -/
def pretty (v : Json) : String :=
  String.ofList (prettyChars 0 v)

end Linework.Json
