/-!
# `Linework.Number.Binary64`: doubles as exact integers

A finite double is `± mantissa · 2 ^ (scale - 1074)` with natural `mantissa` and
`scale`. Its bit pattern, the sign bit aside, is then the plain sum
`scale · 2 ^ 52 + mantissa`, for subnormal and normal numbers alike: the hidden
bit of a normal mantissa carries into the exponent field. `parts` reads a double
that way, and `nearest` writes the double nearest to a fraction of naturals.

Both work in `Nat`, so a statement about rounding is a statement about integer
division.
-/

set_option autoImplicit false

namespace Linework.Binary64

/-- What a double stands for. -/
inductive Parts where
  /-- No number at all. -/
  | nan
  /-- Beyond every finite number. -/
  | infinite (negative : Bool)
  /-- The number `± mantissa · 2 ^ (scale - 1074)`. -/
  | finite (negative : Bool) (mantissa scale : Nat)
  deriving DecidableEq, Repr

/-- The value of the sign bit in a bit pattern, `2 ^ 63`. -/
def signUnit : Nat := 0x8000000000000000

/-- The value of the lowest exponent bit in a bit pattern, `2 ^ 52`, which is also
the hidden bit of a normal mantissa. -/
def scaleUnit : Nat := 0x10000000000000

/-- The bits of a double without the sign, as a number. -/
def magnitudeBits (x : Float) : Nat :=
  x.toBits.toNat % signUnit

/-- Whether the sign bit is set. Zero has one, too. -/
def isNegative (x : Float) : Bool :=
  signUnit ≤ x.toBits.toNat

/-- The bits of positive infinity; a greater magnitude is not a number. -/
def infinityBits : Nat := 2047 * scaleUnit

/-- Reads a double as an exact integer multiple of a power of two. -/
def parts (x : Float) : Parts :=
  let bits := magnitudeBits x
  let exponent := bits / scaleUnit
  let fraction := bits % scaleUnit
  if infinityBits < bits then .nan
  else if bits = infinityBits then .infinite (isNegative x)
  else if exponent = 0 then .finite (isNegative x) fraction 0
  else .finite (isNegative x) (scaleUnit + fraction) (exponent - 1)

/-- The double with the given sign and magnitude bits. -/
def ofMagnitudeBits (negative : Bool) (bits : Nat) : Float :=
  Float.ofBits (UInt64.ofNat (if negative then signUnit + bits else bits))

/-- The quotient of two naturals, rounded to the nearest natural; a half goes to
the even neighbour. -/
def roundHalfEven (num den : Nat) : Nat :=
  let quotient := num / den
  let twice := 2 * (num % den)
  if twice < den then quotient
  else if den < twice then quotient + 1
  else quotient + quotient % 2

/-- The magnitude bits of the double nearest to `num / den`, infinity from the
point on where the next binade would begin.

In units of `2 ^ -1074` the fraction is `num · 2 ^ 1074 / den`. Cutting that to
its leading 53 bits fixes the scale; a fraction below `2 ^ 53` units keeps scale
zero, which is where subnormal numbers lie. A mantissa that rounds up to `2 ^ 53`
needs no care, for the sum carries into the scale. -/
def nearestBits (num den : Nat) : Nat :=
  let units := num <<< 1074
  let scale := (units / den).log2 - 52
  let mantissa := roundHalfEven units (den <<< scale)
  min (scale * scaleUnit + mantissa) infinityBits

/-- The double nearest to `± num / den`; of two equally near, the even one. -/
def nearest (negative : Bool) (num den : Nat) : Float :=
  ofMagnitudeBits negative (nearestBits num den)

/-- The integer part of a double, cut toward zero and held within `low` and
`high`; nothing at all counts as zero. -/
def truncateWithin (low high : Int) (x : Float) : Int :=
  match parts x with
  | .nan => 0
  | .infinite negative => if negative then low else high
  | .finite negative mantissa scale =>
    let whole : Int := (mantissa <<< scale >>> 1074 : Nat)
    max low (min high (if negative then -whole else whole))

/-- The sign of a number, as a number. Zero keeps its own sign. -/
def sign (x : Float) : Float :=
  if 0.0 < x then 1.0
  else if x < 0.0 then -1.0
  else x

end Linework.Binary64
