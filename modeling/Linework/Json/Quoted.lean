/-!
# `Linework.Json.Quoted`: the text between the quotes of a JSON string

A JSON string is kept the way it stands between its quotes. `quote` writes a text
in that form: the quote, the backslash and the control characters are escaped and
every other character stands for itself. `unquote?` reads the form back, in two
steps: escapes become `Piece`s first, because `\u` names a code unit and not a
character, and then a high unit joins the low unit right after it. A unit left
over from a pair names no character, so such a string denotes no text; it is
well-formed all the same (`isLiteral`).
-/

set_option autoImplicit false

namespace Linework.Json

/-- The lowercase hexadecimal digit of a number below sixteen. -/
def hexDigit (n : Nat) : Char :=
  if n < 10 then Char.ofNat ('0'.toNat + n) else Char.ofNat ('a'.toNat + (n - 10))

/-- The value of a hexadecimal digit, letters in either case. -/
def hexValue? (c : Char) : Option Nat :=
  if c.isDigit then some (c.toNat - '0'.toNat)
  else if 'a' ≤ c ∧ c ≤ 'f' then some (c.toNat - 'a'.toNat + 10)
  else if 'A' ≤ c ∧ c ≤ 'F' then some (c.toNat - 'A'.toNat + 10)
  else none

/-- The letter that follows the backslash in a short escape. -/
def shortEscape? (c : Char) : Option Char :=
  if c = '"' then some '"'
  else if c = '\\' then some '\\'
  else if c = '\x08' then some 'b'
  else if c = '\t' then some 't'
  else if c = '\n' then some 'n'
  else if c = '\x0c' then some 'f'
  else if c = '\r' then some 'r'
  else none

/-- The form of one character inside a string. -/
def quoteChar (c : Char) : List Char :=
  match shortEscape? c with
  | some letter => ['\\', letter]
  | none =>
    if c.toNat < 0x20 then
      ['\\', 'u', '0', '0', hexDigit (c.toNat / 16), hexDigit (c.toNat % 16)]
    else [c]

/-- The form of a text inside a string. -/
def quoteChars (cs : List Char) : List Char :=
  cs.flatMap quoteChar

/-- The form of a text inside a string. -/
def quote (s : String) : String :=
  String.ofList (quoteChars s.toList)

/-- What one stretch of a string literal names. -/
inductive Piece where
  /-- A character, by itself or by a short escape. -/
  | char (c : Char)
  /-- A UTF-16 code unit, by a `\u` escape. -/
  | unit (n : Nat)
  deriving DecidableEq, Repr

/-- The character that a short escape names by its letter. -/
def shortEscaped? (letter : Char) : Option Char :=
  if letter = '"' then some '"'
  else if letter = '\\' then some '\\'
  else if letter = '/' then some '/'
  else if letter = 'b' then some '\x08'
  else if letter = 't' then some '\t'
  else if letter = 'n' then some '\n'
  else if letter = 'f' then some '\x0c'
  else if letter = 'r' then some '\r'
  else none

/-- The number that four hexadecimal digits write. -/
def hexUnit? (a b c d : Char) : Option Nat := do
  let a ← hexValue? a
  let b ← hexValue? b
  let c ← hexValue? c
  let d ← hexValue? d
  return ((a * 16 + b) * 16 + c) * 16 + d

/-- The pieces of a literal. Raw quotes and control characters belong to none. -/
def pieces? : List Char → Option (List Piece)
  | [] => some []
  | '\\' :: 'u' :: a :: b :: c :: d :: rest =>
    match hexUnit? a b c d, pieces? rest with
    | some n, some ps => some (.unit n :: ps)
    | _, _ => none
  | '\\' :: letter :: rest =>
    match shortEscaped? letter, pieces? rest with
    | some c, some ps => some (.char c :: ps)
    | _, _ => none
  | c :: rest =>
    if c = '\\' ∨ c = '"' ∨ c.toNat < 0x20 then none
    else (pieces? rest).map (.char c :: ·)

/-- Whether a code unit opens a pair. -/
def isHighUnit (n : Nat) : Bool := 0xD800 ≤ n && n < 0xDC00

/-- Whether a code unit closes a pair. -/
def isLowUnit (n : Nat) : Bool := 0xDC00 ≤ n && n < 0xE000

/-- The text that pieces denote; none when a unit lacks the other half of its
pair. -/
def joinPieces? : List Piece → Option (List Char)
  | [] => some []
  | .char c :: rest => (joinPieces? rest).map (c :: ·)
  -- Two units in a row are a pair or two characters. Halves of a pair are neither.
  | .unit high :: .unit low :: rest =>
    if isHighUnit high then
      if isLowUnit low then
        (joinPieces? rest).map
          (Char.ofNat (0x10000 + (high - 0xD800) * 0x400 + (low - 0xDC00)) :: ·)
      else none
    else if isLowUnit high then none
    else (joinPieces? (.unit low :: rest)).map (Char.ofNat high :: ·)
  | .unit n :: rest =>
    if isHighUnit n || isLowUnit n then none
    else (joinPieces? rest).map (Char.ofNat n :: ·)

/-- The text that a literal denotes. -/
def unquoteChars? (cs : List Char) : Option (List Char) :=
  (pieces? cs).bind joinPieces?

/-- The text that a literal denotes. -/
def unquote? (literal : String) : Option String :=
  (unquoteChars? literal.toList).map String.ofList

/-- Whether the characters may stand between the quotes of a string. -/
def isLiteral (cs : List Char) : Bool :=
  (pieces? cs).isSome

end Linework.Json
