import Linework.Number.Binary64

/-!
# `Linework.Number.Shortest`: the fewest digits that read back

Around every finite double lies the interval of reals that round to it. The
shortest decimal of the double is the point of that interval with the fewest
significant digits, and among those the nearest to the double. The search walks
the decimal grids `10 ^ e` from coarse to fine: on each grid only the two points
next to the double can lie in the interval, so the first grid where one of them
does decides. A grid fine enough to hold the double itself ends the walk.

Everything is counted in quarter units, `2 ^ -1076`, in which the double, its
interval and the grid points are fractions with small denominators.
-/

set_option autoImplicit false

namespace Linework

/-- The number `coefficient · 10 ^ exponent`. -/
structure Decimal where
  coefficient : Nat
  exponent : Int
  deriving DecidableEq, Repr

/-- Which of two decimals equally near to a double is taken. -/
inductive Tie where
  /-- The greater one. -/
  | up
  /-- The one with an even last digit. -/
  | toEven
  deriving DecidableEq, Repr

namespace Decimal

/-- The numerator of a decimal in quarter units over `scaleDen`. -/
def scaleNum (exponent : Int) : Nat := Nat.pow 10 exponent.toNat <<< 1076

/-- The denominator that goes with `scaleNum`. -/
def scaleDen (exponent : Int) : Nat := Nat.pow 10 (-exponent).toNat

/-- A decimal without the zeros at the end of its coefficient. -/
def stripZeros (d : Decimal) : Decimal :=
  go d.coefficient.log2 d
where
  /-- Drops at most `fuel` zeros; a coefficient has fewer digits than bits. -/
  go : Nat → Decimal → Decimal
    | 0, d => d
    | fuel + 1, d =>
      if d.coefficient ≠ 0 ∧ d.coefficient % 10 = 0 then
        go fuel ⟨d.coefficient / 10, d.exponent + 1⟩
      else d

end Decimal

namespace Binary64

/-- The reals that round to `mantissa · 2 ^ (scale - 1074)`, in quarter units.
Below a power of two the doubles lie twice as dense, so the interval is shorter
on that side. The ends belong to it when the mantissa is even. -/
structure Interval where
  low : Nat
  high : Nat
  closed : Bool
  deriving DecidableEq, Repr

/-- The rounding interval of a positive finite double. -/
def interval (mantissa scale : Nat) : Interval where
  low := (4 * mantissa - if mantissa = scaleUnit ∧ scale ≠ 0 then 1 else 2) <<< scale
  high := (4 * mantissa + 2) <<< scale
  closed := mantissa % 2 == 0

/-- Whether `num / den` lies in the interval. -/
def Interval.holds (i : Interval) (num den : Nat) : Bool :=
  if i.closed then i.low * den ≤ num && num ≤ i.high * den
  else i.low * den < num && num < i.high * den

/-- The best point of the grid `10 ^ exponent` in the rounding interval of a
double, if the grid has one there. -/
def gridPoint? (tie : Tie) (mantissa scale : Nat) (exponent : Int) : Option Nat :=
  let i := interval mantissa scale
  let value := (4 * mantissa) <<< scale
  let num := Decimal.scaleNum exponent
  let den := Decimal.scaleDen exponent
  let below := value * den / num
  let above := below + 1
  match i.holds (below * num) den, i.holds (above * num) den with
  | true, false => some below
  | false, true => some above
  | false, false => none
  | true, true =>
    -- Both points next to the double read back, and the nearer one is taken.
    let toBelow := value * den - below * num
    let toAbove := above * num - value * den
    if toBelow < toAbove then some below
    else if toAbove < toBelow then some above
    else match tie with
      | .up => some above
      | .toEven => some (if below % 2 = 0 then below else above)

/-- The first grid point met on `steps` grids, from `10 ^ exponent` downward. -/
def firstGridPoint? (tie : Tie) (mantissa scale : Nat) : Nat → Int → Option Decimal
  | 0, _ => none
  | steps + 1, exponent =>
    match gridPoint? tie mantissa scale exponent with
    | some point => some ⟨point, exponent⟩
    | none => firstGridPoint? tie mantissa scale steps (exponent - 1)

/-- The double itself, written as a decimal. -/
def exactDecimal (mantissa scale : Nat) : Decimal :=
  if 1074 ≤ scale then ⟨mantissa <<< (scale - 1074), 0⟩
  else ⟨mantissa * Nat.pow 5 (1074 - scale), (scale : Int) - 1074⟩

/-- A grid exponent that no shortest decimal exceeds: `2 ^ b ≤ 10 ^ e` holds from
`e = 30103 · b / 100000 + 1` on, rounded up. -/
def coarsestExponent (mantissa scale : Nat) : Int :=
  ((mantissa.log2 + 1 + scale : Int) - 1074) * 30103 / 100000 + 1

/-- Seventeen digits always suffice; the walk begins at most two grids above the
leading digit. -/
def gridCount : Nat := 20

/-- The shortest decimal of a positive finite double, without trailing zeros. -/
def shortest (tie : Tie) (mantissa scale : Nat) : Decimal :=
  let found := firstGridPoint? tie mantissa scale gridCount (coarsestExponent mantissa scale)
  (found.getD (exactDecimal mantissa scale)).stripZeros

end Binary64

end Linework
