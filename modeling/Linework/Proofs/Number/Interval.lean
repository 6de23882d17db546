import Linework.Number.Literal
import Linework.Number.Shortest
import Linework.Proofs.Number.Bits
import Mathlib

/-!
# `Linework.Proofs.Number.Interval`: what rounds to a double

Literals are rounded by `Binary64.nearestBits`, which finds a scale for a fraction and rounds the
mantissa to that. The shortest digits are searched in `Binary64.interval`, which knows nothing of
rounding. `Binary64.nearestBits_eq_iff` brings both together: a fraction rounds to a double exactly
if it lies in the double's interval.

Three cases need care. Below a power of two the doubles are twice as dense, so the interval begins
nearer to it (`Binary64.slack`). A fraction just below may have the scale of the doubles there and
still be rounded up. And the ends of an interval belong to it only if the mantissa is even.

Rounding keeps the order of fractions (`Binary64.nearestBits_mono`). So powers of ten that are too
great or too small to be computed would not change what is read (`Literal.nearestDecimal_eq`).
-/

set_option autoImplicit false

namespace Linework.Binary64

/-- Rounding gives the one number that is at most a half away; where two are, the even one. -/
theorem roundHalfEven_eq_iff (num n : Nat) {den : Nat} (pos : 0 < den) :
    roundHalfEven num den = n ↔
      2 * (n * den) ≤ 2 * num + den ∧ 2 * num ≤ 2 * (n * den) + den ∧
        (2 * num + den = 2 * (n * den) ∨ 2 * num = 2 * (n * den) + den → n % 2 = 0) := by
  have split := Nat.div_add_mod' num den
  have left := Nat.mod_lt num pos
  simp only [roundHalfEven]
  generalize num / den = whole at *
  generalize num % den = rest at *
  have next : (whole + 1) * den = whole * den + den := by rw [Nat.add_mul, Nat.one_mul]
  constructor
  · rintro rfl
    split_ifs
    · omega
    · omega
    · rcases Nat.mod_two_eq_zero_or_one whole with even | odd
      · rw [even, Nat.add_zero]
        omega
      · rw [odd]
        omega
  · rintro ⟨low, high, tie⟩
    -- The number is one of the two next to the quotient.
    have least : whole ≤ n := by
      by_contra less
      have := Nat.mul_le_mul_right den (by omega : n + 1 ≤ whole)
      rw [Nat.add_mul, Nat.one_mul] at this
      omega
    have greatest : n ≤ whole + 1 := by
      by_contra more
      have := Nat.mul_le_mul_right den (by omega : whole + 2 ≤ n)
      rw [Nat.add_mul] at this
      omega
    obtain rfl | rfl : n = whole ∨ n = whole + 1 := by omega
    · split_ifs <;> omega
    · split_ifs <;> omega

/-- A greater quotient is not rounded to a smaller number. -/
theorem roundHalfEven_mono {num den num' den' : Nat} (pos : 0 < den) (pos' : 0 < den')
    (le : num * den' ≤ num' * den) : roundHalfEven num den ≤ roundHalfEven num' den' := by
  rw [← roundHalfEven_mul_right num den pos', ← roundHalfEven_mul_right num' den' pos,
    Nat.mul_comm den']
  have unitPos : 0 < den * den' := Nat.mul_pos pos pos'
  generalize den * den' = unit at unitPos ⊢
  obtain ⟨low, -, even⟩ := (roundHalfEven_eq_iff (num * den') _ unitPos).mp rfl
  obtain ⟨-, high, even'⟩ := (roundHalfEven_eq_iff (num' * den) _ unitPos).mp rfl
  generalize roundHalfEven (num * den') unit = n at *
  generalize roundHalfEven (num' * den) unit = n' at *
  by_contra greater
  -- Both would lie halfway between the same two numbers, of which one is odd.
  have step := Nat.mul_le_mul_right unit (by omega : n' + 1 ≤ n)
  rw [Nat.add_mul, Nat.one_mul] at step
  have next : n = n' + 1 := by
    by_contra far
    have := Nat.mul_le_mul_right unit (by omega : n' + 2 ≤ n)
    rw [Nat.add_mul] at this
    omega
  omega

/-! ## The interval of a double -/

/-- The scale of a fraction is the one at which it has 53 bits before the point, or the least one,
if it has fewer there. -/
theorem scale_eq_iff {units den scale : Nat} (pos : 0 < den) :
    (units / den).log2 - 52 = scale ↔
      units < 2 ^ 53 * (den <<< scale) ∧ (scale ≠ 0 → 2 ^ 52 * (den <<< scale) ≤ units) := by
  have moved (k : Nat) : 2 ^ k * (den <<< scale) = 2 ^ (k + scale) * den := by
    rw [Nat.shiftLeft_eq, Nat.pow_add, Nat.mul_assoc, Nat.mul_comm den]
  rw [moved, moved, ← Nat.div_lt_iff_lt_mul pos, ← Nat.le_div_iff_mul_le pos]
  generalize units / den = quotient
  rcases Nat.eq_zero_or_pos quotient with rfl | some
  · have := Nat.two_pow_pos (53 + scale)
    have := Nat.two_pow_pos (52 + scale)
    rw [Nat.log2_zero]
    omega
  · rw [← Nat.log2_lt (by omega), ← Nat.le_log2 (by omega)]
    omega

/-- The mantissa that is rounded at the scale of a fraction. -/
theorem mantissa_bounds {units den scale : Nat} (pos : 0 < den)
    (scaled : (units / den).log2 - 52 = scale) :
    roundHalfEven units (den <<< scale) ≤ 2 ^ 53 ∧
      (scale ≠ 0 → 2 ^ 52 ≤ roundHalfEven units (den <<< scale)) := by
  obtain ⟨below, above⟩ := (scale_eq_iff pos).mp scaled
  have bounds := roundHalfEven_bounds units (den <<< scale)
  rw [← Nat.div_lt_iff_lt_mul (shiftLeft_pos pos scale)] at below
  rw [← Nat.le_div_iff_mul_le (shiftLeft_pos pos scale)] at above
  omega

/-- How far below a double its interval begins, in quarters of its last place. -/
def slack (m s : Nat) : Nat := if m = scaleUnit ∧ s ≠ 0 then 1 else 2

/-- A fraction of units of the least double lies in the interval of a double, or at an end of it if
the mantissa is even. -/
@[mk_iff] structure Inside (units den m s : Nat) : Prop where
  low : (4 * m - slack m s) * (den <<< s) ≤ 4 * units
  high : 4 * units ≤ (4 * m + 2) * (den <<< s)
  even : (4 * m - slack m s) * (den <<< s) = 4 * units ∨ 4 * units = (4 * m + 2) * (den <<< s) →
    m % 2 = 0

/-- The test is made on quarter units. Here it is told in units of the least double. -/
theorem holds_iff {m s num den : Nat} :
    (interval m s).holds (num <<< 1076) den = true ↔ Inside (num <<< 1074) den m s := by
  have moved (k : Nat) : k <<< s * den = k * (den <<< s) := by
    rw [Nat.shiftLeft_eq, Nat.shiftLeft_eq, Nat.mul_assoc, Nat.mul_comm den]
  have quarters : num <<< 1076 = 4 * (num <<< 1074) := by
    rw [show 1076 = 1074 + 2 from rfl, Nat.shiftLeft_add, Nat.shiftLeft_eq _ 2, Nat.mul_comm]
  rw [inside_iff]
  simp only [Interval.holds, interval, quarters, moved]
  rw [← slack]
  generalize (4 * m - slack m s) * (den <<< s) = low
  generalize (4 * m + 2) * (den <<< s) = high
  generalize 4 * (num <<< 1074) = point
  rcases Nat.mod_two_eq_zero_or_one m with even | odd
  · simp [even]
  · simp only [odd]
    simp
    omega

/-- The magnitude bits of a fraction that is given in units of the least double, as long as it is
not too large. -/
def unitBits (units den : Nat) : Nat :=
  ((units / den).log2 - 52) * scaleUnit
    + roundHalfEven units (den <<< ((units / den).log2 - 52))

/-- The bits of a fraction, in units of the least double, with infinity for what is too large. -/
theorem nearestBits_eq_min (num den : Nat) :
    nearestBits num den = min (unitBits (num <<< 1074) den) infinityBits := rfl

/-! ## Rounding and intervals

A fraction is rounded at a scale of its own. The double in question may have this scale or another,
and each case has its reason why rounding and the interval agree. -/

section Scales

variable {units den m s t : Nat}

/-- One place to the left is twice as much, and more places are no less. -/
theorem two_mul_shiftLeft_le (den : Nat) (h : s < t) : 2 * (den <<< s) ≤ den <<< t := by
  rw [Nat.shiftLeft_eq, Nat.shiftLeft_eq, Nat.mul_left_comm, ← Nat.pow_succ']
  exact Nat.mul_le_mul_left _ (Nat.pow_le_pow_right two_pos h)

/-- At the scale of the double it is the mantissa that decides. -/
theorem roundHalfEven_eq_iff_inside (pos : 0 < den)
    (above : s ≠ 0 → 2 ^ 52 * (den <<< s) ≤ units) :
    roundHalfEven units (den <<< s) = m ↔ Inside units den m s := by
  have unit : scaleUnit = 2 ^ 52 := by decide
  have unitPos : 0 < den <<< s := shiftLeft_pos pos s
  rw [inside_iff, roundHalfEven_eq_iff units m unitPos, slack, Nat.add_mul, Nat.mul_assoc]
  split_ifs with boundary
  · obtain ⟨rfl, scaledUp⟩ := boundary
    have := above scaledUp
    rw [unit]
    omega
  · have zero : m = 0 ∨ den <<< s ≤ m * (den <<< s) :=
      (Nat.eq_zero_or_pos m).imp_right (Nat.le_mul_of_pos_left _)
    rw [Nat.sub_mul, Nat.mul_assoc]
    omega

/-- At the scale below, the fraction is rounded up to a power of two. -/
theorem roundHalfEven_eq_carry_iff (pos : 0 < den) (below : units < 2 ^ 53 * (den <<< t)) :
    roundHalfEven units (den <<< t) = 2 ^ 53 ↔ Inside units den (2 ^ 52) (t + 1) := by
  have unit : scaleUnit = 2 ^ 52 := by decide
  have unitPos : 0 < den <<< t := shiftLeft_pos pos t
  have double : den <<< (t + 1) = 2 * (den <<< t) := by
    rw [Nat.shiftLeft_eq, Nat.shiftLeft_eq, Nat.pow_succ']
    exact Nat.mul_left_comm ..
  rw [inside_iff, roundHalfEven_eq_iff units (2 ^ 53) unitPos, slack,
    if_pos ⟨unit.symm, Nat.succ_ne_zero t⟩, double]
  omega

/-- A fraction with 53 bits at a lower scale is in no interval of this one, unless rounding
carries it over. -/
theorem not_inside_of_scale_lt (below : units < 2 ^ 53 * (den <<< t)) (long : 2 ^ 52 ≤ m)
    (less : t < s) (carry : ¬ (s = t + 1 ∧ m = 2 ^ 52)) : ¬ Inside units den m s := by
  intro inside
  have lower := inside.low
  -- With a longer mantissa the interval would begin above all fractions of the lower scale.
  have same : m = 2 ^ 52 := by
    by_contra longer
    have := Nat.mul_le_mul_right (den <<< s) (by
      unfold slack
      split_ifs <;> omega : 2 ^ 54 ≤ 4 * m - slack m s)
    have := two_mul_shiftLeft_le den less
    omega
  refine carry ⟨?_, same⟩
  -- A scale in between would be too much as well.
  by_contra far
  have := Nat.mul_le_mul_right (den <<< s) (by
    unfold slack
    split_ifs <;> omega : 2 ^ 54 - 2 ≤ 4 * m - slack m s)
  have := two_mul_shiftLeft_le den (by omega : t < t + 1)
  have := two_mul_shiftLeft_le den (by omega : t + 1 < s)
  omega

/-- A fraction with 53 bits at a greater scale is in none either. -/
theorem not_inside_of_lt_scale (pos : 0 < den) (above : 2 ^ 52 * (den <<< t) ≤ units)
    (short : m < 2 ^ 53) (less : s < t) : ¬ Inside units den m s := by
  intro inside
  have upper := inside.high
  have unitPos : 0 < den <<< s := shiftLeft_pos pos s
  have := two_mul_shiftLeft_le den less
  have := Nat.mul_le_mul_right (den <<< s) (by omega : 4 * m + 2 ≤ 2 ^ 55 - 2)
  omega

end Scales

/-- A fraction rounds to a double exactly if it lies in the double's interval. -/
theorem nearestBits_eq_iff {m s : Nat} (canonical : Canonical m s) {num den : Nat}
    (pos : 0 < den) :
    nearestBits num den = s * scaleUnit + m ↔ (interval m s).holds (num <<< 1076) den = true := by
  have unit : scaleUnit = 2 ^ 52 := by decide
  obtain ⟨short, full, finite⟩ := canonical
  have bits : nearestBits num den = s * scaleUnit + m ↔
      unitBits (num <<< 1074) den = s * scaleUnit + m := by
    rw [nearestBits_eq_min]
    generalize unitBits (num <<< 1074) den = bits
    omega
  rw [bits, holds_iff, unitBits]
  generalize num <<< 1074 = units
  generalize scaled : (units / den).log2 - 52 = t
  obtain ⟨below, above⟩ := (scale_eq_iff pos).mp scaled
  obtain ⟨most, least⟩ := mantissa_bounds pos scaled
  rw [unit]
  -- The double may have another scale than the fraction is rounded at.
  rcases Nat.lt_trichotomy t s with less | rfl | greater
  · by_cases carry : s = t + 1 ∧ m = 2 ^ 52
    · obtain ⟨rfl, rfl⟩ := carry
      rw [← roundHalfEven_eq_carry_iff pos below]
      omega
    · have long : 2 ^ 52 ≤ m := full (by omega)
      exact iff_of_false (by omega) (not_inside_of_scale_lt below long less carry)
  · rw [Nat.add_left_cancel_iff, roundHalfEven_eq_iff_inside pos above]
  · have := least (by omega)
    exact iff_of_false (by omega)
      (not_inside_of_lt_scale pos (above (by omega)) (by omega) greater)

/-! ## Rounding keeps the order -/

/-- A greater fraction does not have smaller bits. -/
theorem unitBits_mono {units den units' den' : Nat} (pos : 0 < den) (pos' : 0 < den')
    (order : units * den' ≤ units' * den) : unitBits units den ≤ unitBits units' den' := by
  have unit : scaleUnit = 2 ^ 52 := by decide
  have quotients : units / den ≤ units' / den' := by
    rw [Nat.le_div_iff_mul_le pos']
    refine Nat.le_of_mul_le_mul_right ?_ pos
    calc units / den * den' * den
      _ = units / den * den * den' := Nat.mul_right_comm ..
      _ ≤ units * den' := Nat.mul_le_mul_right _ (Nat.div_mul_le_self ..)
      _ ≤ units' * den := order
  have scales : (units / den).log2 - 52 ≤ (units' / den').log2 - 52 := by
    rcases Nat.eq_zero_or_pos (units / den) with zero | some
    · rw [zero, Nat.log2_zero]
      exact Nat.zero_le _
    · refine Nat.sub_le_sub_right ?_ 52
      rw [Nat.le_log2 (by omega)]
      exact Nat.le_trans (Nat.log2_self_le (by omega)) quotients
  -- From here on the scales are two numbers in this order.
  rw [unitBits, unitBits]
  generalize scaled : (units / den).log2 - 52 = t at scales ⊢
  generalize scaled' : (units' / den').log2 - 52 = t' at scales ⊢
  rcases Nat.lt_or_eq_of_le scales with less | rfl
  · -- The one mantissa has at most one bit more than the other.
    have most := (mantissa_bounds pos scaled).1
    have least := (mantissa_bounds pos' scaled').2 (by omega)
    rw [unit]
    omega
  · have shifted : units * (den' <<< t) ≤ units' * (den <<< t) := by
      rw [Nat.shiftLeft_eq, Nat.shiftLeft_eq, ← Nat.mul_assoc, ← Nat.mul_assoc]
      exact Nat.mul_le_mul_right _ order
    have mantissas := roundHalfEven_mono (shiftLeft_pos pos t) (shiftLeft_pos pos' t) shifted
    exact Nat.add_le_add_left mantissas _

/-- A greater fraction is not rounded to a smaller double. -/
theorem nearestBits_mono {num den num' den' : Nat} (pos : 0 < den) (pos' : 0 < den')
    (le : num * den' ≤ num' * den) : nearestBits num den ≤ nearestBits num' den' := by
  have order : num <<< 1074 * den' ≤ num' <<< 1074 * den := by
    rw [Nat.shiftLeft_eq, Nat.shiftLeft_eq, Nat.mul_right_comm, Nat.mul_right_comm num']
    exact Nat.mul_le_mul_right _ le
  rw [nearestBits_eq_min, nearestBits_eq_min]
  exact min_le_min_right _ (unitBits_mono pos pos' order)

/-- There is nothing beyond infinity. -/
theorem nearestBits_le (num den : Nat) : nearestBits num den ≤ infinityBits :=
  Nat.min_le_right _ _

/-- Fractions beyond the greatest double have the bits of infinity. -/
theorem nearestBits_of_large {num den : Nat} (pos : 0 < den) (large : 2 ^ 1024 * den ≤ num) :
    nearestBits num den = infinityBits := by
  have least : nearestBits (2 ^ 1024) 1 = infinityBits := by decide +kernel
  refine Nat.le_antisymm (nearestBits_le num den) ?_
  rw [← least]
  exact nearestBits_mono Nat.one_pos pos (by rwa [Nat.mul_one])

/-- Fractions of at most a quarter of the least double have the bits of zero. -/
theorem nearestBits_of_small {num den : Nat} (pos : 0 < den) (small : num * 2 ^ 1076 ≤ den) :
    nearestBits num den = 0 := by
  have none : nearestBits 1 (2 ^ 1076) = 0 := by decide +kernel
  refine Nat.eq_zero_of_le_zero ?_
  rw [← none]
  exact nearestBits_mono pos (pow_pos two_pos 1076) (by rwa [Nat.one_mul])

end Linework.Binary64

namespace Linework.Literal

open Binary64

/-- The magnitude bits of the double nearest to `coefficient · 10 ^ exponent`. -/
def decimalBits (coefficient : Nat) (exponent : Int) : Nat :=
  nearestBits (coefficient * 10 ^ exponent.toNat) (10 ^ (-exponent).toNat)

/-- Powers of ten that are not computed would not change what is read. -/
theorem nearestDecimal_eq (negative : Bool) (coefficient : Nat) (exponent : Int) :
    nearestDecimal negative coefficient exponent
      = ofMagnitudeBits negative (decimalBits coefficient exponent) := by
  have tens (n : Nat) : 0 < 10 ^ n := Nat.pow_pos (by decide)
  rw [nearestDecimal, decimalBits]
  -- The powers are not computed for zero and where the exponent alone decides.
  split_ifs with zero large small whole
  · have least (den : Nat) : 0 * 2 ^ 1076 ≤ den := by
      rw [Nat.zero_mul]
      exact Nat.zero_le _
    rw [zero, Nat.zero_mul, nearestBits_of_small (tens _) (least _)]
  · rw [nearestBits_of_large (tens _)]
    have bound : 2 ^ 1024 ≤ 10 ^ 400 := by decide +kernel
    rw [show (-exponent).toNat = 0 by omega, Nat.pow_zero, Nat.mul_one]
    calc 2 ^ 1024
      _ ≤ 10 ^ 400 := bound
      _ ≤ 10 ^ exponent.toNat := pow_le_pow_right₀ (by decide) (by omega)
      _ ≤ coefficient * 10 ^ exponent.toNat :=
        Nat.le_mul_of_pos_left _ (Nat.pos_of_ne_zero zero)
  · rw [nearestBits_of_small (tens _)]
    have bound : 2 ^ 1077 ≤ 10 ^ 400 := by decide +kernel
    have size : coefficient ≤ 2 ^ (coefficient.log2 + 1) := Nat.lt_log2_self.le
    rw [show exponent.toNat = 0 by omega, Nat.pow_zero, Nat.mul_one]
    calc coefficient * 2 ^ 1076
      _ ≤ 2 ^ (coefficient.log2 + 1) * 2 ^ 1076 := Nat.mul_le_mul_right _ size
      _ = 2 ^ coefficient.log2 * 2 ^ 1077 := by rw [← Nat.pow_add, ← Nat.pow_add]
      _ ≤ 10 ^ coefficient.log2 * 10 ^ 400 :=
        Nat.mul_le_mul (Nat.pow_le_pow_left (by decide) _) bound
      _ = 10 ^ (coefficient.log2 + 400) := (pow_add 10 coefficient.log2 400).symm
      _ ≤ 10 ^ (-exponent).toNat := pow_le_pow_right₀ (by decide) (by omega)
  · rw [show (-exponent).toNat = 0 by omega]
    rfl
  · rw [show exponent.toNat = 0 by omega, Nat.pow_zero, Nat.mul_one]
    rfl

end Linework.Literal
