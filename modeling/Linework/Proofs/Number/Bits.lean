import Linework.Number.Binary64
import Linework.Proofs.Number.Rounding
import Mathlib

/-!
# `Linework.Proofs.Number.Bits`: doubles by their bits

A double is read in two ways. `Binary64.parts` takes the fields of its bits apart, and the
arithmetic of doubles unpacks it into a sign, a mantissa and an exponent. `Binary64.unpack_eq` shows
that both find the same. So a double is determined by its parts (`Binary64.parts_inj`), and
`Binary64.eq_ofMagnitudeBits` puts it together again.

Not every mantissa goes with every scale: a number that could be written with a smaller scale is.
`Binary64.Canonical` says which do, and parts are always like that
(`Binary64.canonical_of_parts`). It is also what makes the bits of positive doubles, as numbers,
have the order of the doubles (`Binary64.le_iff_bits`).
-/

set_option autoImplicit false

namespace Linework.Binary64

open Float.Model
open Float.Model.UnpackedFloat (Sign unpackMantissa unpackExponent unpackSign)

/-- A sign as the arithmetic of doubles has it. -/
def signOf (negative : Bool) : Sign := if negative then .negative else .positive

/-- What a double is unpacked to by the arithmetic. -/
def Parts.unpacked : Parts → UnpackedFloat
  | .nan => .notANumber
  | .infinite negative => .infinity (signOf negative)
  | .finite negative mantissa scale =>
    if h : mantissa = 0 then .zero (signOf negative)
    else .finite (signOf negative) mantissa (scale - 1074) (Nat.pos_of_ne_zero h)

/-- The mantissa that the arithmetic unpacks is the last 52 bits. -/
theorem toNat_unpackMantissa (b : BitVec Format.binary64.numBits) :
    (unpackMantissa b).toNat = b.toNat % 2 ^ 52 := by
  show (BitVec.extractLsb 51 0 (b : BitVec 64)).toNat = _
  simp [BitVec.extractLsb]

/-- The exponent is the eleven bits above them. -/
theorem toNat_unpackExponent (b : BitVec Format.binary64.numBits) :
    (unpackExponent b).toNat = b.toNat / 2 ^ 52 % 2 ^ 11 := by
  show (BitVec.extractLsb 62 52 (b : BitVec 64)).toNat = _
  simp [BitVec.extractLsb, Nat.shiftRight_eq_div_pow]

/-- And the sign is the first bit of all. -/
theorem ofBitVec_unpackSign (b : BitVec Format.binary64.numBits) :
    Sign.ofBitVec (unpackSign b) = signOf (signUnit ≤ b.toNat) := by
  have bit : (unpackSign b).toNat = b.toNat / 2 ^ 63 % 2 := by
    show (BitVec.extractLsb 63 63 (b : BitVec 64)).toNat = _
    simp [BitVec.extractLsb, Nat.shiftRight_eq_div_pow]
  have size : b.toNat < 2 ^ 64 := b.isLt
  have unit : signUnit = 2 ^ 63 := by decide
  rw [unit]
  -- The one bit is set from the first number on that has it.
  by_cases negative : 2 ^ 63 ≤ b.toNat
  · have set : unpackSign b = 1#1 := BitVec.eq_of_toNat_eq (by rw [bit]; show _ = 1; omega)
    rw [set, decide_eq_true negative]
    rfl
  · have clear : unpackSign b = 0#1 := BitVec.eq_of_toNat_eq (by rw [bit]; show _ = 0; omega)
    rw [clear, decide_eq_false negative]
    rfl

/-- Without the sign there are 63 bits. -/
theorem magnitudeBits_lt (x : Float) : magnitudeBits x < 2 ^ 63 :=
  Nat.mod_lt _ (by decide)

/-- The parts of a double by the fields of its bits. -/
theorem parts_eq_fields (x : Float) :
    parts x =
      if magnitudeBits x / 2 ^ 52 = 2047 then
        if magnitudeBits x % 2 ^ 52 = 0 then .infinite (isNegative x) else .nan
      else if magnitudeBits x / 2 ^ 52 = 0 then
        .finite (isNegative x) (magnitudeBits x % 2 ^ 52) 0
      else
        .finite (isNegative x) (2 ^ 52 + magnitudeBits x % 2 ^ 52)
          (magnitudeBits x / 2 ^ 52 - 1) := by
  have unit : scaleUnit = 2 ^ 52 := by decide
  have size := magnitudeBits_lt x
  simp only [parts, infinityBits, unit]
  generalize magnitudeBits x = bits at size ⊢
  split_ifs <;> first | rfl | omega

/-- Both ways to read a double agree. -/
theorem unpack_eq (x : Float) : x.toModel.unpack = (parts x).unpacked := by
  have signUnit_eq : signUnit = 2 ^ 63 := by decide
  have bias : Format.binary64.exponentBias = 1023 := by decide
  let b : BitVec Format.binary64.numBits := x.toBits.toBitVec
  have bits : b.toNat = x.toBits.toNat := rfl
  have mantissa : (unpackMantissa b).toNat = magnitudeBits x % 2 ^ 52 := by
    rw [toNat_unpackMantissa, bits, magnitudeBits, signUnit_eq]
    omega
  have exponent : (unpackExponent b).toNat = magnitudeBits x / 2 ^ 52 := by
    rw [toNat_unpackExponent, bits, magnitudeBits, signUnit_eq]
    omega
  have sign : Sign.ofBitVec (unpackSign b) = signOf (isNegative x) := ofBitVec_unpackSign _
  have greatest : unpackExponent b = -1#11 ↔ magnitudeBits x / 2 ^ 52 = 2047 := by
    rw [← BitVec.toNat_inj, exponent]
    exact Iff.rfl
  have least : unpackExponent b = 0#11 ↔ magnitudeBits x / 2 ^ 52 = 0 := by
    rw [← BitVec.toNat_inj, exponent]
    exact Iff.rfl
  have empty : unpackMantissa b = 0#52 ↔ magnitudeBits x % 2 ^ 52 = 0 := by
    rw [← BitVec.toNat_inj, mantissa]
    exact Iff.rfl
  show UnpackedFloat.unpack .binary64 b = _
  simp only [UnpackedFloat.unpack, sign, bias]
  rw [parts_eq_fields]
  -- All bits of the exponent are set, or none, or it is the exponent of a mantissa with a leading
  -- bit.
  by_cases top : magnitudeBits x / 2 ^ 52 = 2047
  · rw [if_pos top, if_pos (greatest.mpr top)]
    by_cases none : magnitudeBits x % 2 ^ 52 = 0
    · rw [if_pos none, if_pos (empty.mpr none)]
      rfl
    · rw [if_neg none, if_neg (mt empty.mp none)]
      rfl
  rw [if_neg top, if_neg (mt greatest.mp top)]
  by_cases bottom : magnitudeBits x / 2 ^ 52 = 0
  · rw [if_pos bottom, if_pos (least.mpr bottom)]
    by_cases none : magnitudeBits x % 2 ^ 52 = 0
    · rw [dif_pos (empty.mpr none), Parts.unpacked, dif_pos none]
    · rw [dif_neg (mt empty.mp none), Parts.unpacked, dif_neg none]
      simp only [exponent, mantissa, bottom]
      rfl
  · rw [if_neg bottom, if_neg (mt least.mp bottom)]
    rw [Parts.unpacked, dif_neg (by omega)]
    have whole : (1#1 ++ unpackMantissa b
        : BitVec (1 + 52)).toNat = 2 ^ 52 + magnitudeBits x % 2 ^ 52 := by
      rw [← mantissa, BitVec.toNat_append, ← Nat.shiftLeft_add_eq_or_of_lt (BitVec.isLt _)]
      rfl
    simp only [whole, exponent]
    congr 1
    show ((magnitudeBits x / 2 ^ 52 : Nat) : Int) - (1023 + 52) = _
    omega

/-- A double is determined by its parts. -/
theorem parts_inj {x y : Float} (same : parts x = parts y) : x = y := by
  have unpacked : x.toModel.unpack = y.toModel.unpack := by rw [unpack_eq, unpack_eq, same]
  apply eq_of_toBitVec
  rw [← UnpackedFloat.pack_unpack_of_valid x.toModel.valid,
    ← UnpackedFloat.pack_unpack_of_valid y.toModel.valid]
  exact congrArg (UnpackedFloat.pack .binary64) unpacked

/-- The test for what is no number agrees with the parts. -/
theorem isNaN_iff (x : Float) : x.isNaN = true ↔ parts x = .nan := by
  show x.toModel.unpack.isNaN = true ↔ _
  rw [unpack_eq]
  cases parts x with
  | nan => exact iff_of_true rfl rfl
  | infinite negative => simp [Parts.unpacked, UnpackedFloat.isNaN]
  | finite negative m s =>
    rw [Parts.unpacked]
    split_ifs <;> simp [UnpackedFloat.isNaN]

/-- So does the test for finite numbers. -/
theorem isFinite_iff (x : Float) :
    x.isFinite = true ↔ ∃ negative m s, parts x = .finite negative m s := by
  show x.toModel.unpack.isFinite = true ↔ _
  rw [unpack_eq]
  cases parts x with
  | nan => simp [Parts.unpacked, UnpackedFloat.isFinite]
  | infinite negative => simp [Parts.unpacked, UnpackedFloat.isFinite]
  | finite negative m s =>
    rw [Parts.unpacked]
    split_ifs <;> simp [UnpackedFloat.isFinite]

/-! ## Doubles with given bits -/

/-- The bits of a double that is made of magnitude bits. Above those of infinity there are none
that would be kept as they are. -/
theorem toNat_toBits_ofMagnitudeBits (negative : Bool) {bits : Nat} (h : bits ≤ infinityBits) :
    (ofMagnitudeBits negative bits).toBits.toNat = if negative then signUnit + bits else bits := by
  have unit : infinityBits = 2047 * 2 ^ 52 := by decide
  have sign : signUnit = 2 ^ 63 := by decide
  have small : (if negative then signUnit + bits else bits) < 2 ^ 64 := by
    split_ifs <;> omega
  generalize whole : (if negative then signUnit + bits else bits) = all at small
  have fields : all % 2 ^ 63 = bits := by
    split_ifs at whole <;> omega
  have same : (BitVec.ofNat 64 all).toNat = all := Nat.mod_eq_of_lt small
  -- Bits up to those of infinity are no pattern of what is not a number.
  have valid : Format.binary64.Valid (BitVec.ofNat 64 all) := by
    refine ⟨fun top some => absurd (BitVec.eq_of_toNat_eq ?_) some⟩
    have exponent := toNat_unpackExponent (BitVec.ofNat 64 all)
    rw [top, same] at exponent
    rw [toNat_unpackMantissa, same]
    change 2047 = all / 2 ^ 52 % 2 ^ 11 at exponent
    show all % 2 ^ 52 = 0
    omega
  show (UnpackedFloat.pack .binary64 (.unpack .binary64 (BitVec.ofNat 64
    (if negative then signUnit + bits else bits)))).toNat = _
  rw [whole, UnpackedFloat.pack_unpack_of_valid valid, same]

/-- A double has the magnitude bits that it is made of. -/
theorem magnitudeBits_ofMagnitudeBits (negative : Bool) {bits : Nat} (h : bits ≤ infinityBits) :
    magnitudeBits (ofMagnitudeBits negative bits) = bits := by
  have unit : infinityBits = 2047 * 2 ^ 52 := by decide
  have sign : signUnit = 2 ^ 63 := by decide
  rw [magnitudeBits, toNat_toBits_ofMagnitudeBits negative h, sign]
  split_ifs <;> omega

/-- And it has the sign that it is made with. -/
theorem isNegative_ofMagnitudeBits (negative : Bool) {bits : Nat} (h : bits ≤ infinityBits) :
    isNegative (ofMagnitudeBits negative bits) = negative := by
  have unit : infinityBits = 2047 * 2 ^ 52 := by decide
  have sign : signUnit = 2 ^ 63 := by decide
  rw [isNegative, toNat_toBits_ofMagnitudeBits negative h]
  cases negative with
  | false =>
    rw [if_neg Bool.false_ne_true]
    exact decide_eq_false (by omega)
  | true =>
    rw [if_pos rfl]
    exact decide_eq_true (Nat.le_add_right _ _)

/-- A mantissa and a scale as finite doubles have them: a mantissa of at most 53 bits, and of
exactly 53 unless the scale is the least one. -/
structure Canonical (mantissa scale : Nat) : Prop where
  short : mantissa < 2 ^ 53
  full : scale ≠ 0 → 2 ^ 52 ≤ mantissa
  finite : scale * scaleUnit + mantissa < infinityBits

/-- A mantissa and a scale of the right form are those of the double with their bits. -/
theorem parts_ofMagnitudeBits (negative : Bool) {m s : Nat} (canonical : Canonical m s) :
    parts (ofMagnitudeBits negative (s * scaleUnit + m)) = .finite negative m s := by
  have unit : scaleUnit = 2 ^ 52 := by decide
  obtain ⟨short, full, finite⟩ := canonical
  rw [parts_eq_fields, magnitudeBits_ofMagnitudeBits negative finite.le,
    isNegative_ofMagnitudeBits negative finite.le]
  rw [infinityBits, unit] at finite
  rw [unit]
  -- A mantissa without a leading bit is one at the least scale.
  by_cases small : m < 2 ^ 52
  · obtain rfl : s = 0 := by omega
    rw [if_neg (by omega), if_pos (by omega)]
    congr 1
    omega
  · rw [if_neg (by omega), if_neg (by omega)]
    congr 1 <;> omega

/-- The bits of infinity are those of infinity. -/
theorem parts_ofMagnitudeBits_infinity (negative : Bool) :
    parts (ofMagnitudeBits negative infinityBits) = .infinite negative := by
  rw [parts_eq_fields, magnitudeBits_ofMagnitudeBits negative (Nat.le_refl _),
    isNegative_ofMagnitudeBits negative (Nat.le_refl _)]
  rfl

/-- The mantissa and the scale of a finite double have the right form. -/
theorem canonical_of_parts {x : Float} {negative : Bool} {m s : Nat}
    (number : parts x = .finite negative m s) : Canonical m s := by
  have unit : scaleUnit = 2 ^ 52 := by decide
  have size := magnitudeBits_lt x
  rw [parts_eq_fields] at number
  split_ifs at number with top none bottom
  · cases number
    refine ⟨by omega, by omega, ?_⟩
    rw [infinityBits, unit]
    omega
  · cases number
    refine ⟨by omega, by omega, ?_⟩
    rw [infinityBits, unit]
    omega

/-- Zero has the least scale. -/
theorem scale_eq_zero {x : Float} {negative : Bool} {s : Nat}
    (number : parts x = .finite negative 0 s) : s = 0 := by
  by_contra scaled
  have := (canonical_of_parts number).full scaled
  omega

/-- A finite double is the one with the bits of its mantissa and its scale. -/
theorem eq_ofMagnitudeBits {x : Float} {negative : Bool} {m s : Nat}
    (number : parts x = .finite negative m s) :
    x = ofMagnitudeBits negative (s * scaleUnit + m) := by
  apply parts_inj
  rw [number, parts_ofMagnitudeBits negative (canonical_of_parts number)]

/-- An infinite double is the one with the bits of infinity. -/
theorem eq_ofMagnitudeBits_infinity {x : Float} {negative : Bool}
    (number : parts x = .infinite negative) : x = ofMagnitudeBits negative infinityBits := by
  apply parts_inj
  rw [number, parts_ofMagnitudeBits_infinity]

/-! ## Sizes -/

/-- A finite double without its sign. -/
theorem parts_abs {x : Float} {negative : Bool} {m s : Nat}
    (number : parts x = .finite negative m s) : parts x.abs = .finite false m s := by
  have positive := parts_ofMagnitudeBits false (canonical_of_parts number)
  -- The arithmetic drops the sign of what is unpacked.
  have unpacked : x.toModel.unpack.abs
      = (ofMagnitudeBits false (s * scaleUnit + m)).toModel.unpack := by
    rw [unpack_eq, unpack_eq, number, positive, Parts.unpacked, Parts.unpacked]
    split_ifs <;> rfl
  have same : x.abs = ofMagnitudeBits false (s * scaleUnit + m) := by
    apply eq_of_toBitVec
    rw [← UnpackedFloat.pack_unpack_of_valid (ofMagnitudeBits false _).toModel.valid]
    exact congrArg (UnpackedFloat.pack .binary64) unpacked
  rw [same, positive]

/-- The arithmetic finds the mantissa of a positive double, and counts its exponent from that of
the least one. -/
theorem unpack_positive {x : Float} {m s : Nat} (number : parts x = .finite false m s)
    (pos : 0 < m) : x.toModel.unpack = .finite .positive m (s - 1074) pos := by
  rw [unpack_eq, number, Parts.unpacked, dif_neg (Nat.ne_of_gt pos)]
  rfl

/-- To compare the scales, and then the mantissas, is to compare the bits. -/
theorem compare_positive {m s m' s' : Nat} (canonical : Canonical m s)
    (canonical' : Canonical m' s') :
    (compare ((s : Int) - 1074) (s' - 1074)).then (compare m m')
      = compare (s * scaleUnit + m) (s' * scaleUnit + m') := by
  have unit : scaleUnit = 2 ^ 52 := by decide
  obtain ⟨short, full, -⟩ := canonical
  obtain ⟨short', full', -⟩ := canonical'
  rw [unit]
  -- Where the scales differ, no mantissa makes up for it.
  rcases Nat.lt_trichotomy s s' with less | rfl | greater
  · rw [Int.compare_eq_lt.mpr (by omega), Ordering.lt_then, Nat.compare_eq_lt.mpr (by omega)]
  · rw [Int.compare_eq_eq.mpr rfl, Ordering.eq_then]
    simp only [Nat.compare_eq_ite_lt, Nat.add_lt_add_iff_left]
  · rw [Int.compare_eq_gt.mpr (by omega), Ordering.gt_then, Nat.compare_eq_gt.mpr (by omega)]

/-- Positive doubles are ordered as their bits are. -/
theorem le_iff_bits {x y : Float} {m s m' s' : Nat} (number : parts x = .finite false m s)
    (number' : parts y = .finite false m' s') (pos : 0 < m) (pos' : 0 < m') :
    x ≤ y ↔ s * scaleUnit + m ≤ s' * scaleUnit + m' := by
  have less : x ≤ y ↔ x.toModel.unpack.le y.toModel.unpack = true := decide_eq_true_iff
  rw [less, unpack_positive number pos, unpack_positive number' pos']
  show ((compare ((s : Int) - 1074) (s' - 1074)).then (compare m m')).isLE = true ↔ _
  rw [compare_positive (canonical_of_parts number) (canonical_of_parts number')]
  exact Nat.isLE_compare

/-- This holds of the strict order as well. -/
theorem lt_iff_bits {x y : Float} {m s m' s' : Nat} (number : parts x = .finite false m s)
    (number' : parts y = .finite false m' s') (pos : 0 < m) (pos' : 0 < m') :
    x < y ↔ s * scaleUnit + m < s' * scaleUnit + m' := by
  have less : x < y ↔ x.toModel.unpack.lt y.toModel.unpack = true := decide_eq_true_iff
  rw [less, unpack_positive number pos, unpack_positive number' pos']
  show (some ((compare ((s : Int) - 1074) (s' - 1074)).then (compare m m')) == some .lt) = true ↔ _
  rw [compare_positive (canonical_of_parts number) (canonical_of_parts number')]
  rw [beq_iff_eq, Option.some_inj]
  exact Nat.compare_eq_lt

end Linework.Binary64
