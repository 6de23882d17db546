import Linework.Number.Binary64
import Linework.Proofs.Number.NegativeZero

/-!
# `Linework.Proofs.Number.Rounding`: sums and products of whole numbers in doubles

`nearest false n 1` is the double nearest to a natural number `n`. It is told from bits and integer
division, and says nothing about how doubles are added or multiplied. Here the two meet: a sum of
two such doubles is the double nearest to the sum of what they stand for (`nearest_add`), and a
product likewise (`nearest_mul`). A double past the greatest number absorbs both
(`nearest_add_of_not`, `nearest_mul_of_not`).

What a double stands for is its number after rounding, `rounded n` (`parts_nearest`), a quotient by
a power of two that is rounded once. Of all numbers with 53 bits and zeros behind them it is the
nearest (`rounded_nearest`), so the double deserves its name (`isNearest_nearest`). The arithmetic
shifts mantissas place by place instead, and keeps track of what falls off in two bits. `Keeps` says
what these know about the quotient, and so a shifted mantissa rounds as the quotient does
(`Keeps.roundedMantissa`).

The rest follows from the observation that rounding depends on the number alone and not on the
mantissa and the exponent that it is written with (`round_congr`): every sum and every product of
whole numbers may be taken as a whole number again, with the exponent zero.
-/

set_option autoImplicit false

namespace Linework.Binary64

open Float.Model
open Float.Model.UnpackedFloat (ExtendedMantissa Accuracy Sign packedInfinity)

/-! ## Rounded quotients -/

/-- A fraction can be expanded. -/
theorem roundHalfEven_mul_right (num den : Nat) {k : Nat} (pos : 0 < k) :
    roundHalfEven (num * k) (den * k) = roundHalfEven num den := by
  have quotient : num * k / (den * k) = num / den := Nat.mul_div_mul_right _ _ pos
  have rest : num * k % (den * k) = num % den * k := Nat.mul_mod_mul_right ..
  simp only [roundHalfEven, quotient, rest, ← Nat.mul_assoc, Nat.mul_lt_mul_right pos]

/-- Rounding depends on the quotient alone. -/
theorem roundHalfEven_congr {num den num' den' : Nat} (pos : 0 < den) (pos' : 0 < den')
    (same : num * den' = num' * den) : roundHalfEven num den = roundHalfEven num' den' := by
  rw [← roundHalfEven_mul_right num den pos', ← roundHalfEven_mul_right num' den' pos, same,
    Nat.mul_comm den]

/-- Rounding gives the integer part or the next number. -/
theorem roundHalfEven_bounds (num den : Nat) :
    num / den ≤ roundHalfEven num den ∧ roundHalfEven num den ≤ num / den + 1 := by
  simp only [roundHalfEven]
  split_ifs <;> omega

/-- A whole number stays as it is. -/
theorem roundHalfEven_mul_self (quotient : Nat) {den : Nat} (pos : 0 < den) :
    roundHalfEven (quotient * den) den = quotient := by
  simp [roundHalfEven, Nat.mul_div_cancel _ pos, pos]

/-- A quotient is rounded to less than an even bound if it is more than a half below it, for the
bound itself takes the tie. -/
theorem roundHalfEven_lt_iff {num half bound : Nat} (pos : 0 < half) (even : bound % 2 = 0) :
    roundHalfEven num (2 * half) < bound ↔ num + half < bound * (2 * half) := by
  have split := Nat.div_add_mod' num (2 * half)
  have left := Nat.mod_lt num (by omega : 0 < 2 * half)
  simp only [roundHalfEven]
  generalize num / (2 * half) = whole at *
  generalize num % (2 * half) = rest at *
  -- Only the integer part just below the bound can be rounded either way.
  rcases Nat.lt_trichotomy (whole + 1) bound with below | last | above
  · have room : (whole + 2) * (2 * half) ≤ bound * (2 * half) := Nat.mul_le_mul_right _ below
    rw [Nat.add_mul] at room
    split_ifs <;> omega
  · rw [← last, Nat.add_mul]
    split_ifs <;> omega
  · have full : bound * (2 * half) ≤ whole * (2 * half) := Nat.mul_le_mul_right _ (by omega)
    split_ifs <;> omega

/-- What an extended mantissa keeps of a quotient: its integer part, and how what is left over
compares with nothing and with a half. -/
structure Keeps (em : ExtendedMantissa) (num den : Nat) : Prop where
  mantissa : em.mantissa = num / den
  roundBit : em.roundBit = true ↔ den ≤ 2 * (num % den)
  stickyBit : em.stickyBit = true ↔ num % den ≠ 0 ∧ 2 * (num % den) ≠ den

/-- To move a mantissa by one place is to divide by two. -/
theorem Keeps.shiftRightOne {em : ExtendedMantissa} {num den : Nat} (keeps : Keeps em num den)
    (pos : 0 < den) : Keeps em.shiftRightOne num (den * 2) := by
  -- The last bit of the integer part becomes the round bit, and the old round bit joins the
  -- sticky one.
  have left : num % (den * 2) = num % den + den * (num / den % 2) := Nat.mod_mul
  have small : num % den < den := Nat.mod_lt _ pos
  obtain ⟨mantissa, roundBit, stickyBit⟩ := keeps
  refine ⟨?_, ?_, ?_⟩
  · show em.mantissa / 2 = _
    rw [mantissa, Nat.div_div_eq_div_mul]
  · show (em.mantissa % 2 != 0) = true ↔ _
    rw [bne_iff_ne, mantissa, left]
    rcases Nat.mod_two_eq_zero_or_one (num / den) with even | odd
    · rw [even]
      omega
    · rw [odd]
      omega
  · show (em.roundBit || em.stickyBit) = true ↔ _
    rw [Bool.or_eq_true, roundBit, stickyBit, left]
    rcases Nat.mod_two_eq_zero_or_one (num / den) with even | odd
    · rw [even]
      omega
    · rw [odd]
      omega

/-- A mantissa that is moved by some places keeps its quotient by a power of two. -/
theorem keeps_shiftRight (mantissa places : Nat) :
    Keeps (ExtendedMantissa.ofMantissaAndAccuracy mantissa .exact >>> places) mantissa
      (2 ^ places) := by
  -- The induction is on the places, for the arithmetic shifts by one at a time.
  induction places with
  | zero =>
    show Keeps ⟨mantissa, false, false⟩ mantissa 1
    exact ⟨(Nat.div_one _).symm, by simp [Nat.mod_one], by simp [Nat.mod_one]⟩
  | succ places ih =>
    rw [Nat.pow_succ]
    exact ih.shiftRightOne (Nat.two_pow_pos places)

/-- And what is kept is enough to round it. -/
theorem Keeps.roundedMantissa {em : ExtendedMantissa} {num den : Nat} (keeps : Keeps em num den)
    (pos : 0 < den) : em.roundedMantissa = roundHalfEven num den := by
  obtain ⟨m, r, s⟩ := em
  obtain ⟨mantissa, roundBit, stickyBit⟩ := keeps
  simp only at mantissa roundBit stickyBit
  subst mantissa
  have small : num % den < den := Nat.mod_lt _ pos
  simp only [roundHalfEven]
  -- The two bits tell four cases: nothing is left over, less than a half, a half, or more.
  cases r <;> cases s <;>
    simp only [ExtendedMantissa.roundedMantissa, ExtendedMantissa.accuracy,
      Accuracy.roundToNearestEven] <;>
    simp only [Bool.false_eq_true, false_iff, true_iff] at roundBit stickyBit <;>
    split_ifs <;> omega

/-! ## Rounded numbers -/

/-- A shift to the left does not make zero of a number. -/
theorem shiftLeft_pos {m : Nat} (pos : 0 < m) (places : Nat) : 0 < m <<< places := by
  rw [Nat.shiftLeft_eq]
  exact Nat.mul_pos pos (Nat.two_pow_pos _)

/-- The number that a mantissa and an exponent stand for. -/
def value (mantissa : Nat) (exponent : Int) : ℚ := mantissa * 2 ^ exponent

/-- A mantissa alone is a natural number. -/
theorem value_zero (n : Nat) : value n 0 = n := by
  rw [value, zpow_zero, mul_one]

/-- A longer mantissa with a smaller exponent is the same number. -/
theorem value_shiftLeft (mantissa places : Nat) (exponent : Int) :
    value (mantissa <<< places) (exponent - places) = value mantissa exponent := by
  rw [value, value, Nat.shiftLeft_eq, Nat.cast_mul, Nat.cast_pow, Nat.cast_ofNat, ← zpow_natCast,
    mul_assoc, ← zpow_add₀ two_ne_zero, add_sub_cancel]

/-- Products of numbers are written with the product of the mantissas and the sum of the
exponents. -/
theorem value_mul (m m' : Nat) (e e' : Int) :
    value (m * m') (e + e') = value m e * value m' e' := by
  simp only [value]
  rw [Nat.cast_mul, zpow_add₀ two_ne_zero]
  ring

/-- Sums, where the exponents are the same, with the sum of the mantissas. -/
theorem value_add (m m' : Nat) (e : Int) : value (m + m') e = value m e + value m' e := by
  rw [value, value, value, Nat.cast_add, add_mul]

/-- The place of the leading bit depends on the number alone. -/
theorem totalExponent_congr {m m' : Nat} {e e' : Int} (pos : 0 < m) (pos' : 0 < m')
    (same : value m e = value m' e') : totalExponent m e = totalExponent m' e' := by
  -- A number lies between the power of two of its leading bit and the next.
  have bounds {k : Nat} (f : Int) (pos : 0 < k) :
      (2 : ℚ) ^ (totalExponent k f - 1) ≤ value k f ∧ value k f < 2 ^ totalExponent k f := by
    have low : ((2 ^ k.log2 : Nat) : ℚ) ≤ k := Nat.cast_le.mpr (Nat.log2_self_le (by omega))
    have high : (k : ℚ) < ((2 ^ (k.log2 + 1) : Nat) : ℚ) := Nat.cast_lt.mpr Nat.lt_log2_self
    have scale : (0 : ℚ) < 2 ^ f := zpow_pos two_pos f
    rw [Nat.cast_pow, Nat.cast_ofNat, ← zpow_natCast] at low high
    rw [value, totalExponent]
    constructor
    · rw [show (k.log2 : Int) + 1 + f - 1 = k.log2 + f by omega, zpow_add₀ two_ne_zero]
      exact mul_le_mul_of_nonneg_right low scale.le
    · rw [zpow_add₀ two_ne_zero]
      exact mul_lt_mul_of_pos_right (by exact_mod_cast high) scale
  obtain ⟨low, high⟩ := bounds e pos
  obtain ⟨low', high'⟩ := bounds e' pos'
  rw [← same] at low' high'
  have first := (zpow_lt_zpow_iff_right₀ one_lt_two).mp (low.trans_lt high')
  have second := (zpow_lt_zpow_iff_right₀ one_lt_two).mp (low'.trans_lt high)
  omega

/-- The exponent that a number has as a double. -/
def target (mantissa : Nat) (exponent : Int) : Int :=
  Format.binary64.targetExponent (totalExponent mantissa exponent)

/-- It leaves 53 bits for the mantissa, but is not below the exponent of the least double. -/
theorem target_eq (mantissa : Nat) (exponent : Int) :
    target mantissa exponent = max (mantissa.log2 + exponent - 52) (-1074) := by
  have least : Format.binary64.minExponent = -1074 := by decide
  simp only [target, Format.targetExponent, totalExponent, least, Format.mantissaBits]
  omega

/-- The last step of rounding: a mantissa that has become one bit too long loses its last bit. -/
def settle (s : Sign) (mantissa : Nat) (exponent : Int) : UnpackedFloat :=
  let cut := UnpackedFloat.shiftToTargetExponent .binary64 mantissa exponent .exact
  if h : cut.1.mantissa = 0 then .zero s
  else .finite s cut.1.mantissa cut.2 (Nat.pos_of_ne_zero h)

/-- A number with enough bits is cut to those that a double has, and rounded. -/
theorem roundWithAccuracy_eq (s : Sign) {m : Nat} {e : Int} (long : e ≤ target m e) :
    UnpackedFloat.roundWithAccuracy .binary64 s m e .exact
      = settle s (roundHalfEven m (2 ^ (target m e - e).toNat)) (target m e) := by
  have kept : (UnpackedFloat.shiftToTargetExponent .binary64 m e .exact).1.roundedMantissa
      = roundHalfEven m (2 ^ (target m e - e).toNat) :=
    (keeps_shiftRight m (target m e - e).toNat).roundedMantissa (Nat.two_pow_pos _)
  have moved : (UnpackedFloat.shiftToTargetExponent .binary64 m e .exact).2 = target m e := by
    show e + ((target m e - e).toNat : Int) = target m e
    omega
  rw [← kept, ← moved]
  rfl

/-- The exponent as a double depends on the number alone. -/
theorem target_congr {m m' : Nat} {e e' : Int} (pos : 0 < m) (pos' : 0 < m')
    (same : value m e = value m' e') : target m e = target m' e' := by
  rw [target, target, totalExponent_congr pos pos' same]

/-- Rounding depends on the number alone, not on how it is written. -/
theorem roundWithAccuracy_congr (s : Sign) {m m' : Nat} {e e' : Int} (pos : 0 < m) (pos' : 0 < m')
    (same : value m e = value m' e') (long : e ≤ target m e) (long' : e' ≤ target m' e') :
    UnpackedFloat.roundWithAccuracy .binary64 s m e .exact
      = UnpackedFloat.roundWithAccuracy .binary64 s m' e' .exact := by
  have aim : target m e = target m' e' := target_congr pos pos' same
  -- Both are cut to the same exponent, so it is enough that the quotients are the same.
  rw [roundWithAccuracy_eq s long, roundWithAccuracy_eq s long', ← aim]
  rw [← aim] at long'
  congr 1
  refine roundHalfEven_congr (Nat.two_pow_pos _) (Nat.two_pow_pos _) ?_
  -- The places that each is cut by make up for the difference in exponents.
  have places {f : Int} (h : f ≤ target m e) :
      ((2 ^ (target m e - f).toNat : Nat) : ℚ) = 2 ^ (target m e - f) := by
    rw [Nat.cast_pow, Nat.cast_ofNat, ← zpow_natCast, Int.toNat_of_nonneg (by omega)]
  have scaled (k : Nat) (f f' : Int) :
      (k : ℚ) * 2 ^ (target m e - f') = value k f * 2 ^ (target m e - f - f') := by
    rw [value, mul_assoc, ← zpow_add₀ two_ne_zero]
    congr 2
    omega
  have cross : (m : ℚ) * (2 ^ (target m e - e').toNat : Nat)
      = m' * (2 ^ (target m e - e).toNat : Nat) := by
    rw [places long, places long', scaled m e, scaled m' e', same, sub_right_comm]
  exact_mod_cast cross

/-- A number with few bits is first made longer, which does not change it. -/
theorem le_target_shiftLeft {m : Nat} (pos : 0 < m) (e : Int) :
    e - ((e - target m e).toNat : Int)
      ≤ target (m <<< (e - target m e).toNat) (e - ((e - target m e).toNat : Int)) := by
  rw [target_congr (shiftLeft_pos pos _) pos (value_shiftLeft m _ e)]
  omega

/-- The same, whether a mantissa is long enough or not. -/
theorem round_congr (s : Sign) {m m' : Nat} {e e' : Int} (pos : 0 < m) (pos' : 0 < m')
    (same : value m e = value m' e') :
    UnpackedFloat.round .binary64 s m e = UnpackedFloat.round .binary64 s m' e' := by
  refine roundWithAccuracy_congr s (shiftLeft_pos pos _) (shiftLeft_pos pos' _) ?_
    (le_target_shiftLeft pos e) (le_target_shiftLeft pos' e')
  rw [value_shiftLeft, value_shiftLeft, same]

/-- A mantissa that is long enough need not be made longer. -/
theorem roundWithAccuracy_eq_round (s : Sign) {m : Nat} {e : Int} (long : e ≤ target m e) :
    UnpackedFloat.roundWithAccuracy .binary64 s m e .exact
      = UnpackedFloat.round .binary64 s m e := by
  have places : (e - target m e).toNat = 0 := by omega
  show _ = UnpackedFloat.roundWithAccuracy .binary64 s (m <<< (e - target m e).toNat)
    (e - ((e - target m e).toNat : Int)) .exact
  rw [places, Nat.shiftLeft_zero, Nat.cast_zero, sub_zero]

/-! ## Natural numbers -/

/-- The leading 53 bits of a number, rounded. -/
def lead (n : Nat) : Nat := roundHalfEven (n * 2 ^ 52) (2 ^ n.log2)

/-- A number rounded to 53 bits; a shorter one stays as it is. -/
def rounded (n : Nat) : Nat := roundHalfEven n (2 ^ (n.log2 - 52)) * 2 ^ (n.log2 - 52)

/-- The leading bits are 53, or they were rounded up to the next power of two. -/
theorem lead_bounds {n : Nat} (pos : 0 < n) : 2 ^ 52 ≤ lead n ∧ lead n ≤ 2 ^ 53 := by
  have low : 2 ^ 52 ≤ n * 2 ^ 52 / 2 ^ n.log2 := by
    rw [Nat.le_div_iff_mul_le (Nat.two_pow_pos _), Nat.mul_comm]
    exact Nat.mul_le_mul_right _ (Nat.log2_self_le (by omega))
  have high : n * 2 ^ 52 / 2 ^ n.log2 < 2 ^ 53 := by
    rw [Nat.div_lt_iff_lt_mul (Nat.two_pow_pos _), Nat.pow_succ 2 52, Nat.mul_assoc, Nat.mul_comm]
    refine Nat.mul_lt_mul_of_pos_left ?_ (Nat.two_pow_pos 52)
    rw [Nat.mul_comm, ← Nat.pow_succ]
    exact Nat.lt_log2_self
  have bounds := roundHalfEven_bounds (n * 2 ^ 52) (2 ^ n.log2)
  rw [lead]
  omega

/-- A number of at most 53 bits stays as it is. -/
theorem rounded_of_lt {n : Nat} (h : n < 2 ^ 53) : rounded n = n := by
  have short : n.log2 - 52 = 0 := by
    rcases Nat.eq_zero_or_pos n with rfl | pos
    · rfl
    · have := (Nat.log2_lt (by omega)).mpr h
      omega
  rw [rounded, short, pow_zero, Nat.mul_one]
  simpa using roundHalfEven_mul_self n Nat.one_pos

/-- The leading bits of a long number are those that are left when the others are cut off. -/
theorem lead_of_le {n : Nat} (long : 52 ≤ n.log2) :
    lead n = roundHalfEven n (2 ^ (n.log2 - 52)) := by
  refine roundHalfEven_congr (Nat.two_pow_pos _) (Nat.two_pow_pos _) ?_
  rw [Nat.mul_assoc, ← Nat.pow_add, Nat.add_sub_cancel' long]

/-- With their exponent the leading bits are the rounded number. -/
theorem value_lead (n : Nat) : value (lead n) (n.log2 - 52) = rounded n := by
  by_cases long : 52 ≤ n.log2
  · rw [rounded, ← lead_of_le long, value, ← Nat.cast_ofNat (R := ℤ), ← Nat.cast_sub long,
      zpow_natCast]
    push_cast
    ring
  -- A short number has room for all its bits, and is not rounded.
  · have whole : lead n = n * 2 ^ (52 - n.log2) := by
      rw [lead, ← roundHalfEven_mul_self (n * 2 ^ (52 - n.log2)) (Nat.two_pow_pos n.log2),
        Nat.mul_assoc, ← Nat.pow_add, Nat.sub_add_cancel (by omega)]
    have short : n < 2 ^ 53 := by
      rcases Nat.eq_zero_or_pos n with rfl | pos
      · decide
      · exact (Nat.log2_lt (by omega)).mp (by omega)
    have moved := value_shiftLeft n (52 - n.log2) 0
    rw [Nat.shiftLeft_eq, ← whole, value_zero] at moved
    rw [rounded_of_lt short, ← moved]
    congr 1
    omega

/-- The natural numbers that doubles can stand for, as long as they are not too large. -/
def IsDouble (n : Nat) : Prop := ∃ m k, m < 2 ^ 53 ∧ n = m * 2 ^ k

/-- Between two neighbours of 53 bits there is no such number. -/
theorem IsDouble.le_or_le {v : Nat} (double : IsDouble v) (n : Nat) :
    v ≤ n / 2 ^ (n.log2 - 52) * 2 ^ (n.log2 - 52) ∨
      (n / 2 ^ (n.log2 - 52) + 1) * 2 ^ (n.log2 - 52) ≤ v := by
  obtain ⟨m, k, short, rfl⟩ := double
  rcases Nat.lt_or_ge k (n.log2 - 52) with small | large
  · -- Then it is below all numbers as long as this one.
    left
    have long : n.log2 = 52 + (n.log2 - 52) := by omega
    have full : 2 ^ 52 ≤ n / 2 ^ (n.log2 - 52) := by
      rw [Nat.le_div_iff_mul_le (Nat.two_pow_pos _), ← Nat.pow_add, ← long]
      refine Nat.log2_self_le ?_
      rintro rfl
      rw [Nat.log2_zero] at small
      omega
    calc m * 2 ^ k
      _ ≤ 2 ^ 53 * 2 ^ k := Nat.mul_le_mul_right _ (by omega)
      _ = 2 ^ 52 * 2 ^ (k + 1) := by
        rw [← Nat.pow_add, ← Nat.pow_add, Nat.add_comm k 1, ← Nat.add_assoc]
      _ ≤ 2 ^ 52 * 2 ^ (n.log2 - 52) :=
        Nat.mul_le_mul_left _ (Nat.pow_le_pow_right two_pos (by omega))
      _ ≤ n / 2 ^ (n.log2 - 52) * 2 ^ (n.log2 - 52) := Nat.mul_le_mul_right _ full
  -- With no smaller exponent than the neighbours it is a multiple of their unit.
  · have split : m * 2 ^ k = m * 2 ^ (k - (n.log2 - 52)) * 2 ^ (n.log2 - 52) := by
      rw [Nat.mul_assoc, ← Nat.pow_add, Nat.sub_add_cancel large]
    rw [split]
    rcases Nat.lt_or_ge (n / 2 ^ (n.log2 - 52)) (m * 2 ^ (k - (n.log2 - 52))) with above | below
    · exact .inr (Nat.mul_le_mul_right _ above)
    · exact .inl (Nat.mul_le_mul_right _ below)

/-- No number that a double can stand for is nearer than the rounded one, and where another is as
near, the rounded one has the even mantissa. -/
theorem rounded_nearest {n v : Nat} (double : IsDouble v) (other : v ≠ rounded n) :
    ((n : Int) - rounded n).natAbs < ((n : Int) - v).natAbs ∨
      ((n : Int) - rounded n).natAbs = ((n : Int) - v).natAbs ∧
        roundHalfEven n (2 ^ (n.log2 - 52)) % 2 = 0 := by
  have gap := double.le_or_le n
  have split := Nat.div_add_mod' n (2 ^ (n.log2 - 52))
  have left := Nat.mod_lt n (Nat.two_pow_pos (n.log2 - 52))
  unfold rounded at other ⊢
  simp only [roundHalfEven] at other ⊢
  -- From here on only the integer part, what is left over and the unit matter.
  generalize 2 ^ (n.log2 - 52) = unit at *
  rw [Nat.add_mul, Nat.one_mul] at gap
  split_ifs at other ⊢
  · omega
  · rw [Nat.add_mul, Nat.one_mul] at other ⊢
    omega
  · rcases Nat.mod_two_eq_zero_or_one (n / unit) with even | odd
    · rw [even, Nat.add_zero] at other ⊢
      omega
    · rw [odd, Nat.add_mul, Nat.one_mul] at other ⊢
      omega

/-- What a long number is rounded to ends in a zero. -/
theorem exists_rounded_eq {n : Nat} (long : 2 ^ 53 ≤ n) :
    ∃ m places, 2 ^ 52 ≤ m ∧ m < 2 ^ 53 ∧ rounded n = m * 2 ^ (places + 1) := by
  have bits : 53 ≤ n.log2 := (Nat.le_log2 (by omega)).mpr long
  have bounds := lead_bounds (by omega : 0 < n)
  have split : n.log2 - 52 = n.log2 - 53 + 1 := by omega
  rw [rounded, ← lead_of_le (by omega), split]
  rcases Nat.lt_or_eq_of_le bounds.2 with short | carry
  · exact ⟨_, _, bounds.1, short, rfl⟩
  -- Rounding up to the next power of two moves the leading bit by one place.
  · refine ⟨2 ^ 52, n.log2 - 53 + 1, Nat.le_refl _, by decide, ?_⟩
    rw [carry, ← Nat.pow_add, ← Nat.pow_add]
    congr 1
    omega

/-- As a double a number has its leading bits, and the exponent that belongs to these. -/
theorem round_nat (s : Sign) {n : Nat} (pos : 0 < n) :
    UnpackedFloat.round .binary64 s n 0 = settle s (lead n) (n.log2 - 52) := by
  have aim : target n 0 = n.log2 - 52 := by
    rw [target_eq]
    omega
  have longer : 0 < n <<< (0 - target n 0).toNat := shiftLeft_pos pos _
  have again : target (n <<< (0 - target n 0).toNat) (0 - ((0 - target n 0).toNat : Int))
      = n.log2 - 52 := by
    rw [target_congr longer pos (value_shiftLeft n _ 0), aim]
  show UnpackedFloat.roundWithAccuracy .binary64 s (n <<< (0 - target n 0).toNat)
    (0 - ((0 - target n 0).toNat : Int)) .exact = _
  -- The number was made longer and is cut again, and the places cancel.
  rw [roundWithAccuracy_eq s (by rw [again]; omega), again, aim]
  congr 1
  refine roundHalfEven_congr (Nat.two_pow_pos _) (Nat.two_pow_pos _) ?_
  rw [Nat.shiftLeft_eq, Nat.mul_assoc, Nat.mul_assoc, ← Nat.pow_add, ← Nat.pow_add]
  congr 2
  omega

/-- A mantissa of 53 bits is settled. -/
theorem settle_of_lt (s : Sign) {m : Nat} (pos : 0 < m) (short : m < 2 ^ 53) {e : Int}
    (h : -1074 ≤ e) : settle s m e = .finite s m e pos := by
  have small : m.log2 < 53 := (Nat.log2_lt (by omega)).mpr short
  have places := targetExponent_sub_toNat m h
  rw [show m.log2 - 52 = 0 by omega] at places
  simp only [settle, UnpackedFloat.shiftToTargetExponent, UnpackedFloat.shiftToExponent, places,
    Nat.cast_zero, add_zero]
  exact dif_neg (Nat.ne_of_gt pos)

/-- The next power of two loses its last bit, which is a zero. -/
theorem settle_two_pow (s : Sign) {e : Int} (h : -1074 ≤ e) :
    settle s (2 ^ 53) e = .finite s (2 ^ 52) (e + 1) (Nat.two_pow_pos 52) := by
  have places := targetExponent_sub_toNat (2 ^ 53) h
  rw [Nat.log2_two_pow] at places
  simp only [settle, UnpackedFloat.shiftToTargetExponent, UnpackedFloat.shiftToExponent, places]
  exact dif_neg (by decide)

/-- A mantissa of 53 bits with the exponent that makes it a rounded number. -/
structure Spells (m : Nat) (e : Int) (n : Nat) : Prop where
  full : 2 ^ 52 ≤ m
  short : m < 2 ^ 53
  le_exponent : -52 ≤ e
  value_eq : value m e = rounded n
  bits : (e + 52).toNat * scaleUnit + m = n.log2 * scaleUnit + lead n

/-- Such a mantissa is not zero. -/
theorem Spells.pos {m n : Nat} {e : Int} (spells : Spells m e n) : 0 < m := by
  have := spells.full
  omega

/-- Every number other than zero is rounded to one that is written so. -/
theorem exists_round_nat (s : Sign) {n : Nat} (pos : 0 < n) :
    ∃ m e, ∃ spells : Spells m e n,
      UnpackedFloat.round .binary64 s n 0 = .finite s m e spells.pos := by
  have bounds := lead_bounds pos
  have whole := value_lead n
  -- The leading bits are 53, or rounding made them one more.
  rcases Nat.lt_or_eq_of_le bounds.2 with short | carry
  · have spells : Spells (lead n) (n.log2 - 52) n := by
      refine ⟨bounds.1, short, by omega, whole, ?_⟩
      rw [sub_add_cancel, Int.toNat_natCast]
    refine ⟨_, _, spells, ?_⟩
    rw [round_nat s pos, settle_of_lt s spells.pos short (by omega)]
  · have spells : Spells (2 ^ 52) (n.log2 - 52 + 1) n := by
      refine ⟨Nat.le_refl _, by decide, by omega, ?_, ?_⟩
      · rw [← whole, carry, ← value_shiftLeft (2 ^ 52) 1]
        congr 1
        omega
      · have above : ((n.log2 : Int) - 52 + 1 + 52).toNat = n.log2 + 1 := by omega
        rw [carry, above, Nat.add_mul, Nat.one_mul, Nat.add_assoc]
        rfl
    refine ⟨_, _, spells, ?_⟩
    rw [round_nat s pos, carry, settle_two_pow s (by omega)]

/-! ## Packing -/

/-- A number beyond the greatest exponent is packed as infinity. -/
theorem pack_eq_packedInfinity {m : Nat} {e : Int} (pos : 0 < m) (large : 972 ≤ e) :
    UnpackedFloat.pack .binary64 (.finite .positive m e pos)
      = packedInfinity .binary64 .positive := by
  have bias : Format.binary64.exponentBias = 1023 := by decide
  rw [UnpackedFloat.pack.eq_4, bias]
  refine if_pos ?_
  show 2 ^ 11 ≤ (e + 1023 + 52).toNat + 1
  omega

/-- Any other one is packed with its exponent, counted from the least, and its mantissa without
the leading bit. -/
theorem pack_eq_packComponents {m : Nat} {e : Int} (pos : 0 < m) (full : 2 ^ 52 ≤ m)
    (short : m < 2 ^ 53) (small : e ≤ 971) :
    UnpackedFloat.pack .binary64 (.finite .positive m e pos)
      = UnpackedFloat.packComponents .binary64 .positive (BitVec.ofNat 11 (e + 1075).toNat)
          (BitVec.ofNat 52 m) := by
  have bias : Format.binary64.exponentBias = 1023 := by decide
  have bits : m.log2 = 52 := (Nat.log2_eq_iff (by omega)).mpr ⟨full, short⟩
  have finite : ¬ 2 ^ 11 ≤ (e + 1023 + 52).toNat + 1 := by omega
  rw [UnpackedFloat.pack.eq_4, bias, bits]
  have biased : (e + 1023 + 52).toNat = (e + 1075).toNat := by omega
  refine (if_neg finite).trans ((if_pos rfl).trans ?_)
  show UnpackedFloat.packComponents .binary64 .positive
    (BitVec.ofNat 11 (e + 1023 + 52).toNat) _ = _
  rw [biased]

/-- The bits of a double are those of its mantissa on top of those of its exponent. -/
theorem toNat_pack {m : Nat} {e : Int} (pos : 0 < m) (full : 2 ^ 52 ≤ m) (short : m < 2 ^ 53)
    (h : -1074 ≤ e) :
    (UnpackedFloat.pack .binary64 (.finite .positive m e pos)).toNat
      = min ((e + 1074).toNat * scaleUnit + m) infinityBits := by
  have unit : scaleUnit = 2 ^ 52 := by decide
  -- What would have too great an exponent is packed as infinity, which is the minimum then.
  rcases Int.lt_or_le 971 e with large | small
  · rw [pack_eq_packedInfinity pos large]
    have bits : (packedInfinity .binary64 .positive).toNat = infinityBits := by decide
    rw [bits, infinityBits, unit]
    omega
  · rw [pack_eq_packComponents pos full short small]
    have parts (exponent : BitVec 11) (mantissa : BitVec 52) :
        (UnpackedFloat.packComponents .binary64 .positive exponent mantissa).toNat
          = exponent.toNat * 2 ^ 52 + mantissa.toNat := by
      show (((0#1 ++ exponent : BitVec 12) ++ mantissa : BitVec 64)).toNat = _
      rw [BitVec.toNat_append, ← Nat.shiftLeft_add_eq_or_of_lt mantissa.isLt, BitVec.toNat_append,
        Nat.shiftLeft_eq]
      simp
    rw [parts, BitVec.toNat_ofNat, BitVec.toNat_ofNat, infinityBits, unit]
    omega

/-- Infinity is unpacked as infinity. -/
theorem unpack_packedInfinity (s : Sign) :
    UnpackedFloat.unpack .binary64 (packedInfinity .binary64 s) = .infinity s := by
  cases s <;> rfl

/-- A double that is not too large is unpacked to what it was packed from. -/
theorem unpack_pack {m : Nat} {e : Int} (pos : 0 < m) (full : 2 ^ 52 ≤ m) (short : m < 2 ^ 53)
    (h : -1074 ≤ e) (small : e ≤ 971) :
    UnpackedFloat.unpack .binary64 (UnpackedFloat.pack .binary64 (.finite .positive m e pos))
      = .finite .positive m e pos := by
  have bias : Format.binary64.exponentBias = 1023 := by decide
  have exponent : (BitVec.ofNat 11 (e + 1075).toNat).toNat = (e + 1075).toNat := by
    rw [BitVec.toNat_ofNat]
    omega
  -- The exponent is neither that of infinity nor that of a number without a leading bit.
  have finite : BitVec.ofNat 11 (e + 1075).toNat ≠ -1#11 := by
    intro same
    have := congrArg BitVec.toNat same
    rw [exponent] at this
    change (e + 1075).toNat = 2047 at this
    omega
  have normal : BitVec.ofNat 11 (e + 1075).toNat ≠ 0#11 := by
    intro same
    have := congrArg BitVec.toNat same
    rw [exponent] at this
    change (e + 1075).toNat = 0 at this
    omega
  have mantissa : (1#1 ++ BitVec.ofNat 52 m : BitVec 53).toNat = m := by
    rw [BitVec.toNat_append, ← Nat.shiftLeft_add_eq_or_of_lt (BitVec.isLt _), BitVec.toNat_ofNat]
    show 2 ^ 52 + m % 2 ^ 52 = m
    omega
  rw [pack_eq_packComponents pos full short small]
  simp only [UnpackedFloat.unpack, UnpackedFloat.unpackExponent_packComponents,
    UnpackedFloat.unpackMantissa_packComponents, UnpackedFloat.unpackSign_packComponents, bias]
  rw [if_neg finite, if_neg normal]
  congr 1
  rw [exponent]
  show ((e + 1075).toNat : Int) - (1023 + 52) = e
  omega

/-! ## The doubles nearest to natural numbers -/

/-- The leading bits of a number stay the same when it is moved to the left. -/
theorem lead_shiftLeft {n : Nat} (pos : 0 < n) {places : Nat} (h : 52 ≤ places) :
    (n <<< places).log2 = n.log2 + places ∧
      roundHalfEven (n <<< places) (1 <<< (n.log2 + places - 52)) = lead n := by
  rw [Nat.shiftLeft_eq, Nat.shiftLeft_eq, Nat.one_mul]
  constructor
  · rw [Nat.log2_eq_iff (Nat.ne_of_gt (Nat.mul_pos pos (Nat.two_pow_pos _))), Nat.add_right_comm,
      Nat.pow_add, Nat.pow_add]
    exact ⟨Nat.mul_le_mul_right _ (Nat.log2_self_le (by omega)),
      Nat.mul_lt_mul_of_pos_right Nat.lt_log2_self (Nat.two_pow_pos _)⟩
  · refine roundHalfEven_congr (Nat.two_pow_pos _) (Nat.two_pow_pos _) ?_
    rw [Nat.mul_assoc, Nat.mul_assoc, ← Nat.pow_add, ← Nat.pow_add]
    congr 2
    omega

/-- The bits nearest to a number are its leading bits on top of its exponent. -/
theorem nearestBits_nat {n : Nat} (pos : 0 < n) :
    nearestBits n 1 = min ((n.log2 + 1022) * scaleUnit + lead n) infinityBits := by
  obtain ⟨bits, same⟩ := lead_shiftLeft pos (by decide : 52 ≤ 1074)
  have scale : n.log2 + 1074 - 52 = n.log2 + 1022 := by omega
  rw [scale] at same
  simp only [nearestBits, Nat.div_one, bits, scale, same]

/-- Zero has the bits of zero. -/
theorem nearestBits_zero : nearestBits 0 1 = 0 := by decide

/-- The bits fit in a double. -/
theorem nearestBits_lt (n : Nat) : nearestBits n 1 < 2 ^ 64 :=
  Nat.lt_of_le_of_lt (Nat.min_le_right _ _) (by decide)

/-- To normalize a positive number is to round it. -/
theorem normalize_pos {m : Nat} (pos : 0 < m) (e : Int) :
    UnpackedFloat.normalize .binary64 m e .positive
      = UnpackedFloat.round .binary64 .positive m e := by
  have positive : compare (m : Int) 0 = .gt := Int.compare_eq_gt.mpr (by omega)
  simp only [UnpackedFloat.normalize, positive, Int.toNat_natCast]

/-- A natural number is made a double by rounding it. -/
theorem ofNat_pos {n : Nat} (pos : 0 < n) :
    UnpackedFloat.ofNat .binary64 n = UnpackedFloat.round .binary64 .positive n 0 :=
  normalize_pos pos 0

/-- The bits nearest to a number, by the mantissa that it is rounded to. -/
theorem Spells.nearestBits {m n : Nat} {e : Int} (spells : Spells m e n) (pos : 0 < n) :
    nearestBits n 1 = min ((e + 1074).toNat * scaleUnit + m) infinityBits := by
  have low := spells.le_exponent
  have same := spells.bits
  have exponent : (e + 1074).toNat = (e + 52).toNat + 1022 := by omega
  rw [nearestBits_nat pos, exponent, Nat.add_mul, Nat.add_mul, Nat.add_right_comm, ← same,
    Nat.add_right_comm]

/-- A double made of bits is what they are unpacked to, packed again. -/
theorem toBitVec_ofMagnitudeBits (bits : Nat) :
    (ofMagnitudeBits false bits).toModel.toBits.toBitVec
      = UnpackedFloat.pack .binary64 (.unpack .binary64 (BitVec.ofNat 64 bits)) := rfl

/-- The bits nearest to a number are those that the arithmetic packs. -/
theorem ofNat_nearestBits (n : Nat) :
    BitVec.ofNat 64 (nearestBits n 1) = UnpackedFloat.pack .binary64 (.ofNat .binary64 n) := by
  apply BitVec.eq_of_toNat_eq
  rcases Nat.eq_zero_or_pos n with rfl | pos
  · rw [nearestBits_zero]
    decide
  · obtain ⟨m, e, spells, written⟩ := exists_round_nat .positive pos
    have low := spells.le_exponent
    rw [ofNat_pos pos, written,
      toNat_pack spells.pos spells.full spells.short (by omega), ← spells.nearestBits pos,
      BitVec.toNat_ofNat, Nat.mod_eq_of_lt (nearestBits_lt n)]

/-- So the double nearest to a number is the one that the arithmetic makes of the number. -/
theorem toBitVec_nearest (n : Nat) :
    (nearest false n 1).toModel.toBits.toBitVec
      = UnpackedFloat.pack .binary64 (.ofNat .binary64 n) := by
  rw [nearest, toBitVec_ofMagnitudeBits, ofNat_nearestBits]
  exact UnpackedFloat.pack_unpack_of_valid UnpackedFloat.valid_pack

/-- It has the bits nearest to the number. -/
theorem toNat_toBits_nearest (n : Nat) : (nearest false n 1).toBits.toNat = nearestBits n 1 := by
  show (nearest false n 1).toModel.toBits.toBitVec.toNat = _
  rw [toBitVec_nearest, ← ofNat_nearestBits, BitVec.toNat_ofNat,
    Nat.mod_eq_of_lt (nearestBits_lt n)]

/-- Two numbers have the same double exactly if the bits are the same. -/
theorem nearest_eq_iff {a b : Nat} :
    nearest false a 1 = nearest false b 1 ↔ nearestBits a 1 = nearestBits b 1 := by
  constructor
  · intro same
    rw [← toNat_toBits_nearest, same, toNat_toBits_nearest]
  · intro same
    rw [nearest, nearest, same]

/-- What the arithmetic makes of a number is the double nearest to it. -/
theorem eq_nearest_of_toModel {x : Float} {n : Nat} (h : x.toModel = pack (.ofNat .binary64 n)) :
    x = nearest false n 1 := by
  apply eq_of_toBitVec
  rw [toBitVec_nearest, h]
  rfl

/-- A number is not too large for a double. -/
def InRange (n : Nat) : Prop := nearestBits n 1 < infinityBits

/-- A number is not too large if the exponent that it is rounded to is one of a double. -/
theorem Spells.inRange_iff {m n : Nat} {e : Int} (spells : Spells m e n) (pos : 0 < n) :
    InRange n ↔ e ≤ 971 := by
  have unit : scaleUnit = 2 ^ 52 := by decide
  have full := spells.full
  have short := spells.short
  have low := spells.le_exponent
  rw [InRange, spells.nearestBits pos, infinityBits, unit]
  omega

/-- The double nearest to a number is unpacked to what the number is rounded to. -/
theorem unpack_nearest {n : Nat} (h : InRange n) :
    (nearest false n 1).toModel.unpack = .ofNat .binary64 n := by
  rw [Float.Model.unpack, toBitVec_nearest]
  rcases Nat.eq_zero_or_pos n with rfl | pos
  · exact UnpackedFloat.unpack_packedZero
  · obtain ⟨m, e, spells, written⟩ := exists_round_nat .positive pos
    have low := spells.le_exponent
    rw [ofNat_pos pos, written]
    exact unpack_pack spells.pos spells.full spells.short (by omega) ((spells.inRange_iff pos).mp h)

/-- For a number that is too large this is infinity. -/
theorem unpack_nearest_of_not {n : Nat} (h : ¬ InRange n) :
    (nearest false n 1).toModel.unpack = .infinity .positive := by
  rw [Float.Model.unpack, toBitVec_nearest]
  rcases Nat.eq_zero_or_pos n with rfl | pos
  · exact absurd (by decide : nearestBits 0 1 < infinityBits) h
  · obtain ⟨m, e, spells, written⟩ := exists_round_nat .positive pos
    rw [spells.inRange_iff pos, Int.not_le] at h
    rw [ofNat_pos pos, written, pack_eq_packedInfinity spells.pos h, unpack_packedInfinity]

/-- Rounding a number that is written with 53 bits leaves it as it is. -/
theorem Spells.round_eq {m n : Nat} {e : Int} (spells : Spells m e n) (s : Sign) :
    UnpackedFloat.round .binary64 s m e = .finite s m e spells.pos := by
  have low := spells.le_exponent
  have bits : m.log2 = 52 :=
    (Nat.log2_eq_iff (Nat.ne_of_gt spells.pos)).mpr ⟨spells.full, spells.short⟩
  have aim : target m e = e := by
    rw [target_eq, bits]
    omega
  rw [← roundWithAccuracy_eq_round s (by omega), roundWithAccuracy_eq s (by omega), aim,
    sub_self, Int.toNat_zero, pow_zero]
  have whole := roundHalfEven_mul_self m Nat.one_pos
  rw [Nat.mul_one] at whole
  rw [whole, settle_of_lt s spells.pos spells.short (by omega)]

/-- No number other than zero is rounded to zero. -/
theorem rounded_pos {n : Nat} (pos : 0 < n) : 0 < rounded n := by
  obtain ⟨m, e, spells, -⟩ := exists_round_nat .positive pos
  have same := spells.value_eq
  have nonzero : value m e ≠ 0 :=
    mul_ne_zero (Nat.cast_ne_zero.mpr (Nat.ne_of_gt spells.pos)) (zpow_ne_zero _ two_ne_zero)
  rw [same, Nat.cast_ne_zero] at nonzero
  omega

/-- To round a number twice is to round it once. -/
theorem ofNat_rounded (n : Nat) :
    UnpackedFloat.ofNat .binary64 (rounded n) = .ofNat .binary64 n := by
  rcases Nat.eq_zero_or_pos n with rfl | pos
  · rfl
  · obtain ⟨m, e, spells, written⟩ := exists_round_nat .positive pos
    rw [ofNat_pos (rounded_pos pos), ofNat_pos pos, written, ← spells.round_eq]
    refine round_congr .positive (rounded_pos pos) spells.pos ?_
    rw [value_zero, spells.value_eq]

/-- A number and what it is rounded to have the same double. -/
theorem nearest_rounded (n : Nat) : nearest false (rounded n) 1 = nearest false n 1 := by
  apply eq_of_toBitVec
  rw [toBitVec_nearest, toBitVec_nearest, ofNat_rounded]

/-- The product of two doubles by the arithmetic of unpacked ones. -/
theorem toModel_mul (x y : Float) :
    (x * y).toModel = pack (.mul .binary64 x.toModel.unpack y.toModel.unpack) := rfl

/-- The product of two doubles is the double nearest to the product of their numbers. -/
theorem nearest_mul {a b : Nat} (ha : InRange a) (hb : InRange b) :
    nearest false a 1 * nearest false b 1 = nearest false (rounded a * rounded b) 1 := by
  apply eq_nearest_of_toModel
  rw [toModel_mul, unpack_nearest ha, unpack_nearest hb]
  congr 1
  -- Zero is unpacked to no mantissa at all, so it is left out first.
  rcases Nat.eq_zero_or_pos a with rfl | posA
  · rcases Nat.eq_zero_or_pos b with rfl | posB
    · rfl
    · obtain ⟨m, e, spells, written⟩ := exists_round_nat .positive posB
      rw [ofNat_pos posB, written, show rounded 0 = 0 from rfl, Nat.zero_mul]
      rfl
  obtain ⟨m, e, spells, written⟩ := exists_round_nat .positive posA
  rcases Nat.eq_zero_or_pos b with rfl | posB
  · rw [ofNat_pos posA, written, show rounded 0 = 0 from rfl, Nat.mul_zero]
    rfl
  obtain ⟨m', e', spells', written'⟩ := exists_round_nat .positive posB
  have pos : 0 < rounded a * rounded b := Nat.mul_pos (rounded_pos posA) (rounded_pos posB)
  have posM : 0 < m * m' := Nat.mul_pos spells.pos spells'.pos
  rw [ofNat_pos posA, written, ofNat_pos posB, written', ofNat_pos pos]
  show UnpackedFloat.roundWithAccuracy .binary64 .positive (m * m') (e + e') .exact = _
  rw [roundWithAccuracy_eq_round .positive]
  · refine round_congr .positive posM pos ?_
    rw [value_mul, spells.value_eq, spells'.value_eq, value_zero, Nat.cast_mul]
  · -- The product has at least 104 bits.
    have long : 52 ≤ (m * m').log2 := by
      rw [Nat.le_log2 (Nat.ne_of_gt posM)]
      exact Nat.le_trans spells.full (Nat.le_mul_of_pos_right m spells'.pos)
    rw [target_eq]
    omega

/-- The sum of two doubles is the double nearest to the sum of their numbers. -/
theorem nearest_add {a b : Nat} (ha : InRange a) (hb : InRange b) :
    nearest false a 1 + nearest false b 1 = nearest false (rounded a + rounded b) 1 := by
  apply eq_nearest_of_toModel
  rw [toModel_add, unpack_nearest ha, unpack_nearest hb]
  congr 1
  rcases Nat.eq_zero_or_pos a with rfl | posA
  · rw [show rounded 0 = 0 from rfl, Nat.zero_add, ofNat_rounded]
    rcases Nat.eq_zero_or_pos b with rfl | posB
    · rfl
    · obtain ⟨m, e, spells, written⟩ := exists_round_nat .positive posB
      rw [ofNat_pos posB, written]
      rfl
  obtain ⟨m, e, spells, written⟩ := exists_round_nat .positive posA
  rcases Nat.eq_zero_or_pos b with rfl | posB
  · rw [show rounded 0 = 0 from rfl, Nat.add_zero, ofNat_rounded, ofNat_pos posA, written]
    rfl
  obtain ⟨m', e', spells', written'⟩ := exists_round_nat .positive posB
  have pos : 0 < rounded a + rounded b := Nat.add_pos_left (rounded_pos posA) _
  rw [ofNat_pos posA, written, ofNat_pos posB, written', ofNat_pos pos]
  -- Both are written with the smaller of their exponents, and then their mantissas are added.
  have least : e - ((e - min e e').toNat : Int) = min e e' := by omega
  have least' : e' - ((e' - min e e').toNat : Int) = min e e' := by omega
  have first := value_shiftLeft m (e - min e e').toNat e
  have second := value_shiftLeft m' (e' - min e e').toNat e'
  rw [least] at first
  rw [least'] at second
  have posM : 0 < m <<< (e - min e e').toNat + m' <<< (e' - min e e').toNat :=
    Nat.add_pos_left (shiftLeft_pos spells.pos _) _
  show UnpackedFloat.normalize .binary64 (((m <<< (e - min e e').toNat : Nat) : Int)
    + ((m' <<< (e' - min e e').toNat : Nat) : Int)) (min e e') .positive = _
  rw [← Nat.cast_add, normalize_pos posM]
  refine round_congr .positive posM pos ?_
  rw [value_add, first, second, spells.value_eq, spells'.value_eq, value_zero, Nat.cast_add]

/-- The rounded number, moved so far to the left that its exponent is no longer negative. -/
theorem Spells.shiftLeft_eq {m n : Nat} {e : Int} (spells : Spells m e n) {k : Nat}
    (h : 52 ≤ k) : m <<< (e + k).toNat = rounded n <<< k := by
  have low := spells.le_exponent
  have same : ((m * 2 ^ (e + k).toNat : Nat) : ℚ) = (rounded n * 2 ^ k : Nat) := by
    rw [Nat.cast_mul, Nat.cast_mul, ← spells.value_eq, value, Nat.cast_pow, Nat.cast_pow,
      Nat.cast_ofNat, ← zpow_natCast, ← zpow_natCast, Int.toNat_of_nonneg (by omega),
      zpow_add₀ two_ne_zero, mul_assoc]
  rw [Nat.shiftLeft_eq, Nat.shiftLeft_eq]
  exact_mod_cast same

/-- The double nearest to a number stands for the number after rounding, in units of the least
double, and its mantissa ends as the leading bits do. -/
theorem parts_nearest {n : Nat} (h : InRange n) :
    ∃ m scale, parts (nearest false n 1) = .finite false m scale ∧
      m <<< scale = rounded n <<< 1074 ∧ m % 2 = lead n % 2 := by
  rcases Nat.eq_zero_or_pos n with rfl | pos
  · exact ⟨0, 0, by decide +kernel, (Nat.zero_shiftLeft _).symm, by decide⟩
  · obtain ⟨m, e, spells, -⟩ := exists_round_nat .positive pos
    have small := (spells.inRange_iff pos).mp h
    have full := spells.full
    have short := spells.short
    have low := spells.le_exponent
    have unit : scaleUnit = 2 ^ 52 := by decide
    have sign : signUnit = 2 ^ 63 := by decide
    have bits := spells.bits
    rw [unit] at bits
    refine ⟨m, (e + 1074).toNat, ?_, spells.shiftLeft_eq (by decide : 52 ≤ 1074), by omega⟩
    -- The bits are taken apart again where they were put together.
    have finite : nearestBits n 1 = (e + 1074).toNat * 2 ^ 52 + m := by
      rw [spells.nearestBits pos, infinityBits, unit]
      omega
    have magnitude : magnitudeBits (nearest false n 1) = (e + 1074).toNat * 2 ^ 52 + m := by
      rw [magnitudeBits, toNat_toBits_nearest, finite, sign]
      omega
    have positive : isNegative (nearest false n 1) = false := by
      rw [isNegative, toNat_toBits_nearest, finite, sign]
      simp only [decide_eq_false_iff_not]
      omega
    have exponent : ((e + 1074).toNat * 2 ^ 52 + m) / 2 ^ 52 = (e + 1074).toNat + 1 := by omega
    have fraction : ((e + 1074).toNat * 2 ^ 52 + m) % 2 ^ 52 = m - 2 ^ 52 := by omega
    simp only [parts, magnitude, positive, infinityBits, unit, exponent, fraction]
    rw [if_neg (by omega), if_neg (by omega), if_neg (by omega), Nat.add_sub_cancel' full,
      Nat.add_sub_cancel]

/-! ## Numbers that are too large -/

/-- The double nearest to a number that is too large is infinite. -/
theorem parts_nearest_of_not {n : Nat} (h : ¬ InRange n) :
    parts (nearest false n 1) = .infinite false := by
  have bits : nearestBits n 1 = infinityBits :=
    Nat.le_antisymm (Nat.min_le_right _ _) (Nat.not_lt.mp h)
  have magnitude : magnitudeBits (nearest false n 1) = infinityBits := by
    rw [magnitudeBits, toNat_toBits_nearest, bits]
    rfl
  have positive : isNegative (nearest false n 1) = false := by
    rw [isNegative, toNat_toBits_nearest, bits]
    rfl
  simp only [parts, magnitude, positive, lt_self_iff_false, if_false, if_true]

/-- The doubles end halfway between the greatest of them and the next power of two. -/
theorem inRange_iff (n : Nat) : InRange n ↔ n + 2 ^ 970 < 2 ^ 1024 := by
  have double (k : Nat) : 2 ^ (k + 1) = 2 * 2 ^ k := Nat.pow_succ'
  have order {j k : Nat} (h : j ≤ k) : 2 ^ j ≤ 2 ^ k := Nat.pow_le_pow_right two_pos h
  have below {k : Nat} (small : k < 2 ^ 1023) : k + 2 ^ 970 < 2 ^ 1024 := by
    rw [double 1023, two_mul]
    exact Nat.add_lt_add_of_lt_of_le small (order (by decide : 970 ≤ 1023))
  rcases Nat.eq_zero_or_pos n with rfl | pos
  · exact iff_of_true (by decide : nearestBits 0 1 < infinityBits) (below (pow_pos two_pos 1023))
  have size (k : Nat) : n.log2 < k ↔ n < 2 ^ k := Nat.log2_lt (by omega)
  have unit : scaleUnit = 2 ^ 52 := by decide
  have bounds := lead_bounds pos
  have magnitude : InRange n ↔ (n.log2 + 1022) * 2 ^ 52 + lead n < 2047 * 2 ^ 52 := by
    rw [InRange, nearestBits_nat pos, infinityBits, unit]
    omega
  rw [magnitude]
  -- With a smaller leading bit a number is far from the end, and with a greater one it is past
  -- it.
  rcases Nat.lt_trichotomy n.log2 1023 with small | last | large
  · exact iff_of_true (by omega) (below ((size 1023).mp small))
  · -- The last of the doubles have 53 bits and 971 places behind them.
    have cut : lead n = roundHalfEven n (2 * 2 ^ 970) := by
      rw [lead_of_le (by omega), last, ← double]
    have places : 2 ^ 1024 = 2 ^ 53 * (2 * 2 ^ 970) := by rw [← double, ← Nat.pow_add]
    rw [places, ← roundHalfEven_lt_iff (pow_pos two_pos 970) (by decide), ← cut, last]
    omega
  · refine iff_of_false (by omega) fun sum => ?_
    have less := (size 1024).mpr (Nat.lt_of_le_of_lt (Nat.le_add_right n _) sum)
    omega

/-- A double is the one nearest to a number. No number that a double can stand for is nearer than
its own, and where another is as near, its mantissa is even. It is infinite for numbers that are
nearer to the next power of two than to the greatest double, or as near. -/
def IsNearest (n : Nat) (x : Float) : Prop :=
  (n + 2 ^ 970 < 2 ^ 1024 →
    ∃ m scale v, parts x = .finite false m scale ∧ m <<< scale = v <<< 1074 ∧
      ∀ w, IsDouble w → w ≠ v →
        ((n : Int) - v).natAbs < ((n : Int) - w).natAbs ∨
          ((n : Int) - v).natAbs = ((n : Int) - w).natAbs ∧ m % 2 = 0) ∧
  (2 ^ 1024 ≤ n + 2 ^ 970 → parts x = .infinite false)

/-- So the double that is found is the nearest one. -/
theorem isNearest_nearest (n : Nat) : IsNearest n (nearest false n 1) := by
  constructor
  · intro range
    obtain ⟨m, scale, finite, same, parity⟩ := parts_nearest ((inRange_iff n).mpr range)
    refine ⟨m, scale, rounded n, finite, same, fun w double other => ?_⟩
    refine (rounded_nearest double other).imp_right fun ⟨tie, even⟩ => ⟨tie, ?_⟩
    by_cases long : 52 ≤ n.log2
    · rwa [parity, lead_of_le long]
    · -- A short number is what the double stands for, and no other is as near.
      have short : n < 2 ^ 53 := by
        by_contra large
        exact long (Nat.le_trans (by decide) ((Nat.le_log2 (by omega)).mpr (Nat.not_lt.mp large)))
      rw [rounded_of_lt short] at tie other
      omega
  · intro large
    exact parts_nearest_of_not fun range => Nat.not_lt.mpr large ((inRange_iff n).mp range)

/-- A number that is too large has the bits of infinity. -/
theorem toBitVec_nearest_of_not {n : Nat} (h : ¬ InRange n) :
    (nearest false n 1).toModel.toBits.toBitVec = packedInfinity .binary64 .positive := by
  have same := UnpackedFloat.pack_unpack_of_valid (nearest false n 1).toModel.valid
  rw [← same]
  exact congrArg (UnpackedFloat.pack .binary64) (unpack_nearest_of_not h)

/-- Numbers that are too large have one double. -/
theorem nearest_eq_of_not {a b : Nat} (ha : ¬ InRange a) (hb : ¬ InRange b) :
    nearest false a 1 = nearest false b 1 := by
  apply eq_of_toBitVec
  rw [toBitVec_nearest_of_not ha, toBitVec_nearest_of_not hb]

/-- What is too large stays so whatever it is multiplied by. -/
theorem nearest_mul_of_not {a b : Nat} (ha : ¬ InRange a) (hb : InRange b) (pos : 0 < b) :
    nearest false a 1 * nearest false b 1 = nearest false a 1 := by
  apply eq_of_toBitVec
  rw [toModel_mul, unpack_nearest_of_not ha, unpack_nearest hb, toBitVec_nearest_of_not ha]
  -- A finite factor other than zero leaves infinity as it is.
  obtain ⟨m, e, spells, written⟩ := exists_round_nat .positive pos
  rw [ofNat_pos pos, written]
  rfl

/-- What is too large stays so whatever is added to it. -/
theorem nearest_add_of_not {a b : Nat} (ha : ¬ InRange a) (hb : InRange b) :
    nearest false a 1 + nearest false b 1 = nearest false a 1 := by
  apply eq_of_toBitVec
  rw [toModel_add, unpack_nearest_of_not ha, unpack_nearest hb, toBitVec_nearest_of_not ha]
  rcases Nat.eq_zero_or_pos b with rfl | pos
  · rfl
  · obtain ⟨m, e, spells, written⟩ := exists_round_nat .positive pos
    rw [ofNat_pos pos, written]
    rfl

/-! ## Numbers with zeros at the end -/

/-- Bits behind a number move its leading bit. -/
theorem log2_mul_two_pow_add {n : Nat} (pos : 0 < n) {k d : Nat} (h : d < 2 ^ k) :
    (n * 2 ^ k + d).log2 = n.log2 + k := by
  have low : 2 ^ n.log2 ≤ n := Nat.log2_self_le (by omega)
  have high : n + 1 ≤ 2 ^ (n.log2 + 1) := Nat.lt_log2_self
  have moved := Nat.mul_le_mul_right (2 ^ k) low
  have next := Nat.mul_le_mul_right (2 ^ k) high
  rw [← Nat.pow_add] at moved next
  rw [Nat.add_mul, Nat.one_mul] at next
  rw [Nat.log2_eq_iff (by have := Nat.two_pow_pos (n.log2 + k); omega), Nat.add_right_comm]
  omega

/-- Zeros behind a number do not change its leading bits. -/
theorem lead_mul_two_pow {n : Nat} (pos : 0 < n) (k : Nat) : lead (n * 2 ^ k) = lead n := by
  have bits := log2_mul_two_pow_add pos (Nat.two_pow_pos k)
  rw [Nat.add_zero] at bits
  refine roundHalfEven_congr (Nat.two_pow_pos _) (Nat.two_pow_pos _) ?_
  rw [bits, Nat.pow_add]
  ring

/-- They are still there when the number is rounded. -/
theorem rounded_mul_two_pow (n k : Nat) : rounded (n * 2 ^ k) = rounded n * 2 ^ k := by
  rcases Nat.eq_zero_or_pos n with rfl | pos
  · rw [Nat.zero_mul]
    exact (Nat.zero_mul _).symm
  · have bits := log2_mul_two_pow_add pos (Nat.two_pow_pos k)
    rw [Nat.add_zero] at bits
    have moved := value_lead (n * 2 ^ k)
    rw [lead_mul_two_pow pos, bits] at moved
    have whole := value_lead n
    -- Both are the leading bits with their exponents, and these differ by the zeros.
    have same : ((rounded (n * 2 ^ k) : Nat) : ℚ) = (rounded n * 2 ^ k : Nat) := by
      rw [← moved, Nat.cast_mul, ← whole, value, value, mul_assoc]
      push_cast
      rw [← zpow_natCast, ← zpow_add₀ two_ne_zero]
      congr 2
      omega
    exact_mod_cast same

/-- A number is in range if it is with zeros behind it. -/
theorem InRange.of_mul_two_pow {n k : Nat} (h : InRange (n * 2 ^ k)) : InRange n := by
  rcases Nat.eq_zero_or_pos n with rfl | pos
  · rwa [Nat.zero_mul] at h
  · have bits := log2_mul_two_pow_add pos (Nat.two_pow_pos k)
    rw [Nat.add_zero] at bits
    rw [InRange, nearestBits_nat (Nat.mul_pos pos (Nat.two_pow_pos _)), bits,
      lead_mul_two_pow pos] at h
    rw [InRange, nearestBits_nat pos]
    have more : (n.log2 + 1022) * scaleUnit ≤ (n.log2 + k + 1022) * scaleUnit :=
      Nat.mul_le_mul_right _ (by omega)
    omega

/-- Numbers of up to 64 bits are not too large. -/
theorem inRange_of_lt {n : Nat} (h : n < 2 ^ 64) : InRange n := by
  rcases Nat.eq_zero_or_pos n with rfl | pos
  · show nearestBits 0 1 < infinityBits
    rw [nearestBits_zero]
    decide
  · have bits : n.log2 < 64 := (Nat.log2_lt (by omega)).mpr h
    have bounds := lead_bounds pos
    have unit : scaleUnit = 2 ^ 52 := by decide
    rw [InRange, nearestBits_nat pos, infinityBits, unit]
    omega

end Linework.Binary64
