import Mathlib

/-!
# `Linework.Proofs.Number.NegativeZero`: sums that keep clear of negative zero

Adding zero to a double gives the double back, with one exception: `-0 + 0` is `0`. A sum never
gets there unless it starts there. Where two doubles cancel, the sum is `+0`; where they do not,
it is at least one unit of the last place that any double has, and so rounding leaves something
of it. Hence what begins at `+0` and goes on by sums can be added zero to without a change
(`add_zero_of_ne`, `add_ne_negativeZero`).

A double is opened here as the sign, the mantissa and the exponent of its number. A number with a
mantissa below `2 ^ 53` and an exponent of at least `-1074` fits a double as it is (`Fits`).
Rounding makes every number fit and none of them nothing (`round_fits`).
-/

set_option autoImplicit false

namespace Linework.Binary64

open Float.Model
open Float.Model.UnpackedFloat (ExtendedMantissa Accuracy Sign packedZero)

/-- Zero with a minus sign. -/
def negativeZero : Float := -0.0

/-- A number other than zero that is a double. -/
structure Fits (mantissa : Nat) (exponent : Int) : Prop where
  pos : 0 < mantissa
  mantissa_lt : mantissa < 2 ^ 53
  le_exponent : -1074 ≤ exponent

/-! ## Rounding -/

/-- To move a mantissa by some places is to divide by a power of two. -/
theorem mantissa_shiftRight (em : ExtendedMantissa) (places : Nat) :
    (em >>> places).mantissa = em.mantissa / 2 ^ places := by
  induction places with
  | zero =>
    show em.mantissa = em.mantissa / 1
    rw [Nat.div_one]
  | succ places ih =>
    show (em >>> places).mantissa / 2 = em.mantissa / 2 ^ (places + 1)
    rw [ih, Nat.div_div_eq_div_mul, Nat.pow_succ]

/-- An extended mantissa has the mantissa that it is made of. -/
theorem mantissa_ofMantissaAndAccuracy (mantissa : Nat) (accuracy : Accuracy) :
    (ExtendedMantissa.ofMantissaAndAccuracy mantissa accuracy).mantissa = mantissa := by
  rcases accuracy with _ | (_ | _ | _) <;> rfl

/-- Rounding does not go below the mantissa. -/
theorem le_roundToNearestEven (mantissa : Nat) (accuracy : Accuracy) :
    mantissa ≤ accuracy.roundToNearestEven mantissa := by
  rcases accuracy with _ | (_ | _ | _) <;> simp [Accuracy.roundToNearestEven]

/-- How far a number is shifted so that it fits: as far as it is longer than 53 bits. -/
theorem targetExponent_sub_toNat (mantissa : Nat) {exponent : Int} (h : -1074 ≤ exponent) :
    (Format.binary64.targetExponent (totalExponent mantissa exponent) - exponent).toNat
      = mantissa.log2 - 52 := by
  have least : Format.binary64.minExponent = -1074 := by decide
  simp only [Format.targetExponent, totalExponent, least, Format.mantissaBits]
  omega

/-- Cut to its leading 53 bits, a number that is a multiple of the least double keeps something. -/
theorem shiftToTargetExponent_fits {mantissa : Nat} (pos : 0 < mantissa) {exponent : Int}
    (h : -1074 ≤ exponent) (accuracy : Accuracy) :
    let cut := UnpackedFloat.shiftToTargetExponent .binary64 mantissa exponent accuracy
    Fits cut.1.mantissa cut.2 := by
  intro cut
  have low : 2 ^ mantissa.log2 ≤ mantissa := Nat.log2_self_le (by omega)
  have high : mantissa < 2 ^ (mantissa.log2 + 1) := Nat.lt_log2_self
  have places := targetExponent_sub_toNat mantissa h
  have left : cut.1.mantissa = mantissa / 2 ^ (mantissa.log2 - 52) := by
    rw [← places]
    show ExtendedMantissa.mantissa (_ >>> _) = _
    rw [mantissa_shiftRight, mantissa_ofMantissaAndAccuracy]
  have moved : cut.2 = exponent + (mantissa.log2 - 52 : Nat) := by
    rw [← places]
    rfl
  rw [left, moved]
  refine ⟨Nat.div_pos ?_ (Nat.two_pow_pos _), ?_, by omega⟩
  · exact Nat.le_trans (Nat.pow_le_pow_right (by decide) (by omega)) low
  · rw [Nat.div_lt_iff_lt_mul (Nat.two_pow_pos _), ← Nat.pow_add]
    exact Nat.lt_of_lt_of_le high (Nat.pow_le_pow_right (by decide) (by omega))

/-- Rounding such a number leaves a double other than zero. -/
theorem roundWithAccuracy_fits (s : Sign) {mantissa : Nat} (pos : 0 < mantissa) {exponent : Int}
    (h : -1074 ≤ exponent) (accuracy : Accuracy) :
    ∃ m e, ∃ fits : Fits m e,
      UnpackedFloat.roundWithAccuracy .binary64 s mantissa exponent accuracy = .finite s m e fits.pos := by
  let cut := UnpackedFloat.shiftToTargetExponent .binary64 mantissa exponent accuracy
  have fits : Fits cut.1.mantissa cut.2 := shiftToTargetExponent_fits pos h accuracy
  have rounded : 0 < cut.1.roundedMantissa :=
    Nat.lt_of_lt_of_le fits.pos (le_roundToNearestEven _ cut.1.accuracy)
  -- Rounding up may have added a bit, so the result is cut once more.
  have again := shiftToTargetExponent_fits rounded fits.le_exponent .exact
  refine ⟨_, _, again, ?_⟩
  exact dif_neg (Nat.ne_of_gt again.pos)

/-- The same for a mantissa of any length. -/
theorem round_fits (s : Sign) {mantissa : Nat} (pos : 0 < mantissa) {exponent : Int}
    (h : -1074 ≤ exponent) :
    ∃ m e, ∃ fits : Fits m e,
      UnpackedFloat.round .binary64 s mantissa exponent = .finite s m e fits.pos := by
  -- A short number is first made longer, down to the exponent that it will have.
  have least : Format.binary64.minExponent = -1074 := by decide
  have target : -1074 ≤ Format.binary64.targetExponent (totalExponent mantissa exponent) := by
    rw [Format.targetExponent, least]
    omega
  simp only [UnpackedFloat.round, UnpackedFloat.decreaseExponent]
  generalize Format.binary64.targetExponent (totalExponent mantissa exponent) = aim at target ⊢
  have longer : 0 < mantissa <<< (exponent - aim).toNat := by
    rw [Nat.shiftLeft_eq]
    exact Nat.mul_pos pos (Nat.two_pow_pos _)
  exact roundWithAccuracy_fits s longer (by omega) .exact

/-! ## Packing and unpacking -/

/-- A number that fits is not packed as a zero. -/
theorem pack_ne_packedZero (s s' : Sign) {mantissa : Nat} {exponent : Int}
    (fits : Fits mantissa exponent) :
    UnpackedFloat.pack .binary64 (.finite s mantissa exponent fits.pos) ≠ packedZero .binary64 s' := by
  intro same
  have bias : Format.binary64.exponentBias = 1023 := by decide
  have width : Format.binary64.mantissaBits = 53 := by decide
  obtain ⟨pos, short, le⟩ := fits
  rw [UnpackedFloat.pack.eq_4, bias, width] at same
  split at same
  · -- Beyond every finite number all bits of the exponent are set.
    have bits := congrArg UnpackedFloat.unpackExponent same
    simp [UnpackedFloat.packedInfinity, packedZero] at bits
  · rename_i finite
    -- Then the exponent, counted from that of the least double, fits its eleven bits.
    have small : (exponent + 1023 + 52).toNat + 1 < 2 ^ 11 := Nat.lt_of_not_le finite
    split at same
    · -- The exponent of a mantissa of 53 bits is packed as one at least.
      have bits := congrArg (BitVec.toNat ∘ UnpackedFloat.unpackExponent) same
      simp only [Function.comp, packedZero, UnpackedFloat.unpackExponent_packComponents,
        BitVec.toNat_ofNat] at bits
      change (exponent + 1023 + 52).toNat % 2 ^ 11 = 0 at bits
      omega
    · -- A shorter mantissa is packed as it is.
      have bits := congrArg (BitVec.toNat ∘ UnpackedFloat.unpackMantissa) same
      have shorter : mantissa.log2 < 52 := by
        have := (Nat.log2_lt (by omega)).mpr short
        omega
      have whole : mantissa < 2 ^ 52 := (Nat.log2_lt (by omega)).mp shorter
      simp only [Function.comp, packedZero, UnpackedFloat.unpackMantissa_packComponents,
        BitVec.toNat_ofNat] at bits
      change mantissa % 2 ^ 52 = 0 at bits
      omega

/-- What a finite double other than zero is unpacked to fits. -/
theorem fits_of_unpack {b : BitVec Format.binary64.numBits} {s : Sign} {mantissa : Nat}
    {exponent : Int} {pos : 0 < mantissa}
    (h : UnpackedFloat.unpack .binary64 b = .finite s mantissa exponent pos) :
    Fits mantissa exponent := by
  have bias : Format.binary64.exponentBias = 1023 := by decide
  have short : (UnpackedFloat.unpackMantissa b).toNat < 2 ^ 52 := BitVec.isLt _
  have long : (1#1 ++ UnpackedFloat.unpackMantissa b).toNat < 2 ^ 53 := BitVec.isLt _
  unfold UnpackedFloat.unpack at h
  simp only [bias] at h
  -- The exponent is that of infinity, which is no number, or the least one, or another.
  split at h
  · split at h <;> cases h
  · split at h
    · split at h
      · cases h
      · cases h
        exact ⟨pos, by omega, by omega⟩
    · rename_i normal
      have one : (UnpackedFloat.unpackExponent b).toNat ≠ 0 :=
        fun zero => normal (BitVec.eq_of_toNat_eq zero)
      cases h
      exact ⟨pos, long, by omega⟩

/-! ## Sums -/

/-- Doubles with the same bits are the same. -/
theorem eq_of_toBitVec {x y : Float}
    (h : x.toModel.toBits.toBitVec = y.toModel.toBits.toBitVec) : x = y := by
  obtain ⟨⟨⟨_⟩, _⟩⟩ := x
  obtain ⟨⟨⟨_⟩, _⟩⟩ := y
  cases h
  rfl

/-- Only negative zero is unpacked to the zero with a minus sign. -/
theorem unpack_eq_negative_zero_iff (x : Float) :
    x.toModel.unpack = .zero .negative ↔ x = negativeZero := by
  have bits : negativeZero.toModel.toBits.toBitVec = packedZero .binary64 .negative := by
    decide +kernel
  rw [Float.Model.unpack, UnpackedFloat.unpack_eq_zero_iff_of_valid x.toModel.valid, ← bits]
  exact ⟨eq_of_toBitVec, fun same => by rw [same]⟩

/-- The sum of two doubles by the arithmetic of unpacked ones. -/
theorem toModel_add (x y : Float) :
    (x + y).toModel = pack (.add .binary64 x.toModel.unpack y.toModel.unpack) := rfl

/-- Where the sum of two numbers that are multiples of the least double is zero, it is packed as
the zero with the sign given for that. -/
theorem pack_normalize_ne {mantissa exponent : Int} (h : -1074 ≤ exponent) :
    UnpackedFloat.pack .binary64 (.normalize .binary64 mantissa exponent .positive)
      ≠ packedZero .binary64 .negative := by
  -- A number below zero or above it is rounded to one that is not zero.
  unfold UnpackedFloat.normalize
  split
  · rename_i below
    have negative := Int.compare_eq_lt.mp below
    have size : 0 < (-mantissa).toNat := by omega
    obtain ⟨m, e, fits, rounded⟩ := round_fits .negative size h
    rw [rounded]
    exact pack_ne_packedZero _ _ fits
  · decide
  · rename_i above
    have positive := Int.compare_eq_gt.mp above
    have size : 0 < mantissa.toNat := by omega
    obtain ⟨m, e, fits, rounded⟩ := round_fits .positive size h
    rw [rounded]
    exact pack_ne_packedZero _ _ fits

/-- The same for whatever two doubles are unpacked to, where the first is not negative zero. -/
theorem pack_add_ne {a b : UnpackedFloat} (h : a ≠ .zero .negative)
    (fa : ∀ {s m e pos}, a = .finite s m e pos → Fits m e)
    (fb : ∀ {s m e pos}, b = .finite s m e pos → Fits m e) :
    UnpackedFloat.pack .binary64 (.add .binary64 a b) ≠ packedZero .binary64 .negative := by
  have nan : UnpackedFloat.pack .binary64 .notANumber ≠ packedZero .binary64 .negative := by decide
  have infinite (s : Sign) :
      UnpackedFloat.pack .binary64 (.infinity s) ≠ packedZero .binary64 .negative := by
    cases s <;> decide
  -- The sum goes by what the two doubles are unpacked to.
  cases a with
  | notANumber => exact nan
  | infinity s =>
    cases b with
    | notANumber => exact nan
    | infinity s' => cases s <;> cases s' <;> decide
    | zero s' => exact infinite s
    | finite s' m' e' pos' => exact infinite s
  | zero s =>
    have positive : s = .positive := by
      cases s with
      | positive => rfl
      | negative => exact absurd rfl h
    subst positive
    cases b with
    | notANumber => exact nan
    | infinity s' => exact infinite s'
    | zero s' => cases s' <;> decide
    | finite s' m' e' pos' => exact pack_ne_packedZero _ _ (fb rfl)
  | finite s m e pos =>
    cases b with
    | notANumber => exact nan
    | infinity s' => exact infinite s'
    | zero s' => exact pack_ne_packedZero _ _ (fa rfl)
    | finite s' m' e' pos' =>
      -- The sum is taken in units of the smaller exponent.
      have first := (fa rfl).le_exponent
      have second := (fb rfl).le_exponent
      exact pack_normalize_ne (by omega : -1074 ≤ min e e')

/-- A sum is negative zero only where it begins at negative zero. -/
theorem add_ne_negativeZero {x : Float} (h : x ≠ negativeZero) (y : Float) :
    x + y ≠ negativeZero := by
  intro same
  have packed := (unpack_eq_negative_zero_iff (x + y)).mpr same
  rw [toModel_add, Float.Model.unpack,
    UnpackedFloat.unpack_eq_zero_iff_of_valid (Float.Model.valid _)] at packed
  have start := mt (unpack_eq_negative_zero_iff x).mp h
  exact pack_add_ne start fits_of_unpack fits_of_unpack packed

/-- Adding zero to a double other than negative zero changes nothing. -/
theorem add_zero_of_ne {x : Float} (h : x ≠ negativeZero) : x + 0.0 = x := by
  have zero : (0.0 : Float).toModel.unpack = .zero .positive := by
    have bits : (0.0 : Float).toModel.toBits.toBitVec = packedZero .binary64 .positive := by
      decide +kernel
    rw [Float.Model.unpack, bits, UnpackedFloat.unpack_packedZero]
  have start := mt (unpack_eq_negative_zero_iff x).mp h
  have same : UnpackedFloat.add .binary64 x.toModel.unpack (.zero .positive) = x.toModel.unpack := by
    cases number : x.toModel.unpack with
    | zero s =>
      cases s with
      | positive => rfl
      | negative => exact absurd number start
    | _ => rfl
  apply eq_of_toBitVec
  rw [toModel_add, zero, same]
  exact UnpackedFloat.pack_unpack_of_valid x.toModel.valid

end Linework.Binary64
