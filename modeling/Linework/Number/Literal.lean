import Linework.Number.Binary64
import Linework.Text

/-!
# `Linework.Number.Literal`: number literals

Two grammars read numbers. A script token may be blank (zero), `Infinity` with a
sign, a radix literal (`0x`, `0o`, `0b`, no sign), or a decimal literal: a sign,
digits with a point anywhere among them, and an exponent. A number on the command
line is a decimal literal or one of the words `inf`, `infinity` and `nan`, in any
case.

A decimal literal denotes the double nearest to its exact value. A radix literal
is read digit by digit in doubles, so past 53 bits it rounds at every digit.
-/

set_option autoImplicit false

namespace Linework.Literal

/-- An optional sign and the characters after it. -/
def sign : List Char → Bool × List Char
  | '-' :: rest => (true, rest)
  | '+' :: rest => (false, rest)
  | cs => (false, cs)

/-- The number that a list of decimal digits denotes. -/
def natOfDigits (ds : List Char) : Nat :=
  Nat.ofDigitChars 10 ds 0

/-- The exponent part that ends a decimal literal: nothing, or `e` with an
optional sign and at least one digit. -/
def exponent? : List Char → Option Int
  | [] => some 0
  | c :: rest =>
    if c = 'e' ∨ c = 'E' then
      let (negative, ds) := sign rest
      if ds.isEmpty || !ds.all Char.isDigit then none
      else some (if negative then -(natOfDigits ds) else natOfDigits ds)
    else none

/-- A decimal literal without its sign, as `coefficient · 10 ^ exponent`: digits,
an optional point with digits after it, at least one digit in all, and an
exponent part. -/
def unsigned? (cs : List Char) : Option (Nat × Int) :=
  let whole := cs.takeWhile Char.isDigit
  let afterWhole := cs.dropWhile Char.isDigit
  let (fraction, afterFraction) := match afterWhole with
    | '.' :: rest => (rest.takeWhile Char.isDigit, rest.dropWhile Char.isDigit)
    | rest => ([], rest)
  -- A point alone is no number, though digits may be missing on either side of it.
  if whole.isEmpty && fraction.isEmpty then none
  else (exponent? afterFraction).map fun e =>
    (natOfDigits (whole ++ fraction), e - fraction.length)

/-- The double nearest to `± coefficient · 10 ^ exponent`. Powers of ten that lie
beyond every double on either side are not computed. -/
def nearestDecimal (negative : Bool) (coefficient : Nat) (exponent : Int) : Float :=
  if coefficient = 0 then Binary64.ofMagnitudeBits negative 0
  else if 400 < exponent then Binary64.ofMagnitudeBits negative Binary64.infinityBits
  -- A long coefficient makes up for a small exponent, so its length counts too.
  else if exponent < -400 - coefficient.log2 then Binary64.ofMagnitudeBits negative 0
  else if 0 ≤ exponent then Binary64.nearest negative (coefficient * Nat.pow 10 exponent.toNat) 1
  else Binary64.nearest negative coefficient (Nat.pow 10 (-exponent).toNat)

/-- A decimal literal. -/
def decimal? (cs : List Char) : Option Float :=
  let (negative, digits) := sign cs
  (unsigned? digits).map fun (coefficient, exponent) =>
    nearestDecimal negative coefficient exponent

/-- The value of a digit in a radix up to sixteen, letters in either case. -/
def digitValue? (radix : Nat) (c : Char) : Option Nat :=
  let value :=
    if c.isDigit then some (c.toNat - '0'.toNat)
    else if 'a' ≤ c ∧ c ≤ 'f' then some (c.toNat - 'a'.toNat + 10)
    else if 'A' ≤ c ∧ c ≤ 'F' then some (c.toNat - 'A'.toNat + 10)
    else none
  value.filter (· < radix)

/-- Reads digits from the left into a double, `acc · radix + digit` at a time. -/
def accumulate (radix : Nat) : Float → List Char → Option Float
  | acc, [] => some acc
  | acc, c :: rest =>
    match digitValue? radix c with
    | some d => accumulate radix (acc * Float.ofNat radix + Float.ofNat d) rest
    | none => none

/-- The digits of a radix literal; there is at least one. -/
def radixDigits? (radix : Nat) (ds : List Char) : Option Float :=
  if ds.isEmpty then none else accumulate radix 0.0 ds

/-- The radix that the second character of a radix literal names. -/
def radixOf? : Char → Option Nat
  | 'x' | 'X' => some 16
  | 'o' | 'O' => some 8
  | 'b' | 'B' => some 2
  | _ => none

/-- Splits a radix literal into its radix and its digits. -/
def radix? : List Char → Option (Nat × List Char)
  | '0' :: c :: rest => (radixOf? c).map fun radix => (radix, rest)
  | _ => none

/-- Positive infinity. -/
def infinity : Float := Binary64.ofMagnitudeBits false Binary64.infinityBits

/-- Negative infinity. -/
def negativeInfinity : Float := Binary64.ofMagnitudeBits true Binary64.infinityBits

/-- A script token without the blanks around it. -/
def token? (cs : List Char) : Option Float :=
  if cs = [] then some 0.0
  else if cs = "Infinity".toList ∨ cs = "+Infinity".toList then some infinity
  else if cs = "-Infinity".toList then some negativeInfinity
  -- What begins like a radix literal is read as one or not at all.
  else match radix? cs with
    | some (radix, ds) => radixDigits? radix ds
    | none => decimal? cs

/-- A number on the command line: a decimal literal, or a word for a value that
is not finite. -/
def option? (s : String) : Option Float :=
  let (negative, word) := sign s.toList
  let lower := word.map Char.toLower
  if lower = "inf".toList ∨ lower = "infinity".toList then
    some (if negative then negativeInfinity else infinity)
  else if lower = "nan".toList then
    some (Float.ofBits 0x7FF8000000000000)
  else decimal? s.toList

end Linework.Literal

namespace Linework

/-- Reads a numeric token of a script. Blanks around it do not count. -/
def parseNumber (token : String) : Option Float :=
  Literal.token? (Text.strip token.toList)

end Linework
