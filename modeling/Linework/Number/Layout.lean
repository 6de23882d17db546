import Linework.Number.Shortest

/-!
# `Linework.Number.Layout`: decimals as text

Two kinds of output print numbers: hints and JSON. Both show the shortest digits
of a double, and differ only in which numbers are in plain notation, whether a
whole number gets a fraction, and how an exact tie between two shortest decimals
goes. Those decisions are one `NumberFormat` value each, and the text is laid out
by one function.

A number `0.d₁d₂…dₖ · 10 ^ point` with digits `d₁…dₖ` has its decimal point after
`point` digits; `point` may be negative or exceed the number of digits.
-/

set_option autoImplicit false

namespace Linework

/-- The numbers that are printed without an exponent. -/
inductive PlainRange where
  /-- Those whose point has one of the positions from `first` to `last`. -/
  | points (first last : Int)
  /-- Those of a size from `least` up to, but not including, `bound`. -/
  | sizes (least bound : Float)
  deriving Repr

/-- Whether a number of this size, with its point at this position, is in the range. -/
def PlainRange.holds (size : Float) (point : Int) : PlainRange → Bool
  | points first last => first ≤ point && point ≤ last
  | sizes least bound => least ≤ size && size < bound

/-- The decisions of one number notation. -/
structure NumberFormat where
  /-- Which numbers are printed without an exponent. -/
  range : PlainRange
  /-- Whether a whole number in plain notation ends in `.0`. -/
  wholeFraction : Bool
  /-- How a tie between two shortest decimals goes. -/
  tie : Tie
  deriving Repr

namespace NumberFormat

/-- The decimal digits of a natural number. -/
def digits (n : Nat) : List Char :=
  Nat.toDigits 10 n

/-- The digits with the point after the first `point` of them, zeros filling the
places on either side that no digit takes. -/
def plain (wholeFraction : Bool) (ds : List Char) (point : Int) : List Char :=
  if point ≤ 0 then '0' :: '.' :: (List.replicate (-point).toNat '0' ++ ds)
  else if ds.length ≤ point.toNat then
    ds ++ List.replicate (point.toNat - ds.length) '0'
      ++ (if wholeFraction then ['.', '0'] else [])
  else ds.take point.toNat ++ '.' :: ds.drop point.toNat

/-- The digits with the point after the first one, and the power of ten that puts
it back, always signed. -/
def scientific (ds : List Char) (point : Int) : List Char :=
  let exponent := point - 1
  let mark := if exponent < 0 then '-' else '+'
  let mantissa := match ds with
    | [] => []
    | [d] => [d]
    | d :: more => d :: '.' :: more
  mantissa ++ 'e' :: mark :: digits exponent.natAbs

/-- The text of digits with a point among them, for a number of this size. -/
def layout (f : NumberFormat) (size : Float) (ds : List Char) (point : Int) : List Char :=
  if f.range.holds size point then plain f.wholeFraction ds point else scientific ds point

/-- The text of a finite double other than zero, without its sign. -/
def magnitude (f : NumberFormat) (size : Float) (mantissa scale : Nat) : List Char :=
  let d := Binary64.shortest f.tie mantissa scale
  let ds := digits d.coefficient
  f.layout size ds (d.exponent + ds.length)

end NumberFormat

/-- The decimal numeral of a natural number. -/
def numeral (n : Nat) : String :=
  String.ofList (NumberFormat.digits n)

/-- Hints print a whole number without a fraction, use an exponent from `10 ^ 21`
on and below `10 ^ -6`, and take the greater of two tied decimals. -/
def hintFormat : NumberFormat where
  range := .sizes 1e-6 1e21
  wholeFraction := false
  tie := .up

/-- JSON numbers print a whole number with a fraction, use an exponent from
`10 ^ 16` on and below `10 ^ -5`, and take the even one of two tied decimals. -/
def jsonFormat : NumberFormat where
  range := .points (-4) 16
  wholeFraction := true
  tie := .toEven

/-- A number as a hint shows it. Zero has no sign there. -/
def formatNumber (x : Float) : String :=
  match Binary64.parts x with
  | .nan => "NaN"
  | .infinite negative => if negative then "-Infinity" else "Infinity"
  | .finite negative mantissa scale =>
    if mantissa = 0 then "0"
    else
      let text := hintFormat.magnitude x.abs mantissa scale
      String.ofList (if negative then '-' :: text else text)

end Linework
