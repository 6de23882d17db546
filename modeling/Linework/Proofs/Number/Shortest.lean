import Linework.Number.Layout
import Linework.Proofs.Number.Grid

/-!
# `Linework.Proofs.Number.Shortest`: the shortest decimal of a double

`Binary64.IsShortest` says what is meant by the shortest digits, without a search: of the decimals
that read as the double, one with the fewest digits, of those the nearest, and of those the greater.
There is one such decimal (`Binary64.IsShortest.unique`), and the walk over the grids ends at it
(`Binary64.isShortest_shortest`).

The walk never compares decimals on different grids. Mostly it need not, since on a finer grid it
takes more digits to come as near (`Binary64.Found.fewest`). As few will do only where the coarser
grid has a point with one digit (`Binary64.Found.digitCount_eq_one`), as with `9 · 10 ^ -1` and `1`.
Then the coarser grid's point is the nearer one (`Binary64.Found.lt_of_finer`). For the least of the
doubles, with mantissas of one digit, this takes a look at the powers of ten around them
(`Binary64.not_grid_near`).
-/

set_option autoImplicit false

namespace Linework

namespace NumberFormat

/-! ## Numbers of digits -/

/-- How many decimal digits a number has. -/
def digitCount (n : Nat) : Nat := (digits n).length

/-- Every number has a digit. -/
theorem digitCount_pos (n : Nat) : 0 < digitCount n := Nat.length_toDigits_pos

/-- A number is less than the power of ten with one digit more. -/
theorem lt_ten_pow (n : Nat) : n < 10 ^ digitCount n :=
  (Nat.length_toDigits_le_iff (by decide) (digitCount_pos n)).mp (Nat.le_refl _)

/-- And it is no less than the one with as many digits. -/
theorem ten_pow_le {n : Nat} (pos : 0 < n) : 10 ^ (digitCount n - 1) ≤ n := by
  by_contra less
  have some := digitCount_pos n
  rcases Nat.eq_zero_or_pos (digitCount n - 1) with one | more
  · rw [one, Nat.pow_zero] at less
    omega
  · have short : digitCount n ≤ digitCount n - 1 :=
      (Nat.length_toDigits_le_iff (by decide) more).mpr (Nat.not_le.mp less)
    omega

end NumberFormat

/-- The number that a decimal stands for. -/
def Decimal.value (d : Decimal) : ℚ := d.coefficient * 10 ^ d.exponent

namespace Binary64

open NumberFormat

/-! ## Reading decimals -/

/-- A greater decimal does not read as a smaller double. -/
theorem decimalBits_mono {d d' : Decimal} (le : d.value ≤ d'.value) :
    Literal.decimalBits d.coefficient d.exponent
      ≤ Literal.decimalBits d'.coefficient d'.exponent := by
  have tens (n : Nat) : 0 < 10 ^ n := Nat.pow_pos (by decide)
  have tensQ (n : Nat) : (0 : ℚ) < 10 ^ n := pow_pos (by norm_num) n
  rw [Decimal.value, Decimal.value, ten_zpow_eq_div, ten_zpow_eq_div, ← mul_div_assoc,
    ← mul_div_assoc, div_le_div_iff₀ (tensQ _) (tensQ _)] at le
  exact nearestBits_mono (tens _) (tens _) (by exact_mod_cast le)

/-- Decimals of one value read as one double. -/
theorem decimalBits_eq {c c' : Nat} {e e' : Int}
    (same : (⟨c, e⟩ : Decimal).value = (⟨c', e'⟩ : Decimal).value) :
    Literal.decimalBits c e = Literal.decimalBits c' e' :=
  le_antisymm (@decimalBits_mono ⟨c, e⟩ ⟨c', e'⟩ same.le)
    (@decimalBits_mono ⟨c', e'⟩ ⟨c, e⟩ same.ge)

/-- A decimal reads as the double with this mantissa and this scale. -/
def ReadsAs (m s : Nat) (d : Decimal) : Prop :=
  Literal.decimalBits d.coefficient d.exponent = s * scaleUnit + m

/-- How far a decimal is from the double. -/
def distance (m s : Nat) (d : Decimal) : ℚ := |d.value - value m (s - 1074)|

/-- The shortest decimal of a double: none that reads as the double has fewer digits, of those with
as few none is nearer to it, and of those as near none is greater. -/
structure IsShortest (m s : Nat) (d : Decimal) : Prop where
  reads : ReadsAs m s d
  fewest : ∀ other, ReadsAs m s other → digitCount d.coefficient ≤ digitCount other.coefficient
  nearest : ∀ other, ReadsAs m s other → digitCount other.coefficient = digitCount d.coefficient →
    distance m s d ≤ distance m s other
  greatest : ∀ other, ReadsAs m s other → digitCount other.coefficient = digitCount d.coefficient →
    distance m s other = distance m s d → other.value ≤ d.value

/-- A decimal reads as a double if it lies in the interval of the double. -/
theorem readsAs_iff {m s : Nat} (canonical : Canonical m s) (d : Decimal) :
    ReadsAs m s d ↔ (interval m s).Has (d.coefficient * grid d.exponent) := by
  have tens : 0 < 10 ^ (-d.exponent).toNat := Nat.pow_pos (by decide)
  have moved (c t k : Nat) : (c * 10 ^ t) <<< k = c * (Nat.pow 10 t <<< k) := by
    rw [Nat.shiftLeft_eq, Nat.shiftLeft_eq, Nat.mul_assoc, Nat.pow_eq]
  rw [ReadsAs, Literal.decimalBits, nearestBits_eq_iff canonical tens, moved,
    ← holds_iff_has_grid]
  exact Iff.rfl

/-- The value of a decimal in quarter units. -/
theorem value_mul_grid (d : Decimal) : d.value * 2 ^ 1076 = d.coefficient * grid d.exponent := by
  rw [Decimal.value, grid, mul_assoc]

/-- The value of a double in quarter units. -/
theorem value_quarters (m s : Nat) : value m (s - 1074) * 2 ^ 1076 = quarters m s := by
  have four : (4 : ℚ) = 2 ^ (2 : Int) := by norm_num
  have places : (2 : ℚ) ^ ((s : Int) - 1074) * 2 ^ 1076 = 4 * 2 ^ s := by
    rw [four, ← zpow_natCast, ← zpow_natCast, ← zpow_add₀ two_ne_zero, ← zpow_add₀ two_ne_zero]
    congr 1
    omega
  rw [value, quarters, mul_assoc, places, ← mul_assoc, mul_comm (m : ℚ) 4]

/-- The distance between them in quarter units. -/
theorem distance_eq (m s : Nat) (d : Decimal) :
    distance m s d * 2 ^ 1076 = |d.coefficient * grid d.exponent - quarters m s| := by
  have unit : (0 : ℚ) < 2 ^ 1076 := pow_pos two_pos 1076
  rw [distance, ← abs_of_pos unit, ← abs_mul, sub_mul, value_mul_grid, value_quarters]

/-- So distances can be compared in quarter units. -/
theorem distance_le_iff (m s : Nat) (d d' : Decimal) :
    distance m s d ≤ distance m s d' ↔
      |d.coefficient * grid d.exponent - quarters m s|
        ≤ |d'.coefficient * grid d'.exponent - quarters m s| := by
  rw [← distance_eq, ← distance_eq]
  exact (mul_le_mul_iff_of_pos_right (pow_pos two_pos 1076)).symm

/-! ## Fewer digits on finer grids -/

/-- A decimal with few digits on a fine grid lies below the first number with that many on a
coarser one. -/
theorem lt_grid {n k : Nat} {e e' : Int} (few : digitCount n ≤ k) (place : e' + k ≤ e) :
    n * grid e' < grid e := by
  have below : (n : ℚ) < 10 ^ k := by
    have := Nat.lt_of_lt_of_le (lt_ten_pow n) (Nat.pow_le_pow_right (by decide) few)
    exact_mod_cast this
  calc n * grid e'
    _ < 10 ^ k * grid e' := mul_lt_mul_of_pos_right below (grid_pos e')
    _ = grid (e' + k) := (grid_add e' k).symm
    _ ≤ grid e := grid_mono place

/-- The first number with as many digits. -/
theorem grid_le {n : Nat} (pos : 0 < n) (e : Int) :
    grid (e + (digitCount n - 1 : Nat)) ≤ n * grid e := by
  have above : (10 : ℚ) ^ (digitCount n - 1) ≤ n := by exact_mod_cast ten_pow_le pos
  rw [grid_add]
  exact mul_le_mul_of_nonneg_right above (grid_pos e).le

/-- The grid of a negative power of ten, multiplied out. -/
theorem grid_neg (n : Nat) : grid (-n) * 10 ^ n = (2 ^ 1076 : Nat) := by
  rw [grid, zpow_neg, zpow_natCast, mul_right_comm, inv_mul_cancel₀ (pow_ne_zero n (by norm_num)),
    one_mul, Nat.cast_pow, Nat.cast_ofNat]

/-- Whole numbers show when some points of that grid are below a number. -/
theorem grid_neg_lt {n k j : Nat} (bound : j * 2 ^ 1076 < k * 10 ^ n) : j * grid (-n) < k := by
  have tens : (0 : ℚ) < 10 ^ n := pow_pos (by norm_num) n
  rw [← mul_lt_mul_iff_of_pos_right tens, mul_assoc, grid_neg]
  exact_mod_cast bound

/-- And when they are above it. -/
theorem lt_grid_neg {n k j : Nat} (bound : k * 10 ^ n < j * 2 ^ 1076) : k < j * grid (-n) := by
  have tens : (0 : ℚ) < 10 ^ n := pow_pos (by norm_num) n
  rw [← mul_lt_mul_iff_of_pos_right tens, mul_assoc, grid_neg]
  exact_mod_cast bound

/-- No power of ten lies just above a double with a mantissa of one digit. -/
theorem not_grid_near {m : Nat} (pos : 0 < m) (small : m ≤ 9) {e : Int}
    (above : 20 * (4 * m : ℚ) ≤ 19 * grid e) (below : grid e ≤ 4 * m + 2) : False := by
  have least : (1 : ℚ) ≤ m := by exact_mod_cast pos
  have most : (m : ℚ) ≤ 9 := by exact_mod_cast small
  have ten := lt_grid_neg (n := 322) (k := 38) (j := 1) (by decide +kernel)
  have eight := lt_grid_neg (n := 323) (k := 8) (j := 1) (by decide +kernel)
  have nine := grid_neg_lt (n := 323) (k := 81) (j := 10) (by decide +kernel)
  have one := grid_neg_lt (n := 324) (k := 4) (j := 1) (by decide +kernel)
  push_cast at ten eight nine one
  -- In quarter units the powers of ten next to such mantissas are about 40.5, 4.05 and 0.4, and
  -- none of them fits.
  rcases Int.lt_trichotomy e (-323) with lower | rfl | upper
  · have order := grid_mono (by omega : e ≤ -324)
    linarith
  · rcases Nat.lt_or_ge m 2 with first | more
    · have : (m : ℚ) ≤ 1 := by exact_mod_cast (by omega : m ≤ 1)
      linarith
    · have : (2 : ℚ) ≤ m := by exact_mod_cast more
      linarith
  · have order := grid_mono (by omega : -322 ≤ e)
    linarith

/-- What reads as the same double with no more digits and on a grid finer by as many does so only
where the decimal has one digit. -/
theorem Found.digitCount_eq_one {tie : Tie} {m s : Nat} {d : Decimal} (found : Found tie m s d)
    (pos : 0 < m) {n : Nat} {e : Int} (inside : (interval m s).Has (n * grid e))
    (finer : e + digitCount n ≤ d.exponent + (digitCount d.coefficient - 1 : Nat)) :
    digitCount d.coefficient = 1 := by
  have self := (gridPoint?_nearest pos found.here).1
  have some := digitCount_pos d.coefficient
  have between := inside.between self (lt_grid (Nat.le_refl _) finer).le
    (grid_le (pos_of_has pos self) d.exponent)
  -- Otherwise the first number with as many digits would lie in the interval, and on a coarser
  -- grid.
  by_contra more
  refine found.coarser (d.exponent + (digitCount d.coefficient - 1 : Nat)) (by omega) 1 ?_
  rwa [Nat.cast_one, one_mul]

/-- No decimal in the interval has fewer digits than the one that is found, or a coarser grid. -/
theorem Found.fewest {tie : Tie} {m s : Nat} {d : Decimal} (found : Found tie m s d) (pos : 0 < m)
    {n : Nat} {e : Int} (inside : (interval m s).Has (n * grid e)) :
    e ≤ d.exponent ∧ digitCount d.coefficient ≤ digitCount n := by
  have place : e ≤ d.exponent := by
    by_contra above
    exact found.coarser e (by omega) n inside
  refine ⟨place, ?_⟩
  by_contra fewer
  have one := found.digitCount_eq_one pos inside (by omega)
  have some := digitCount_pos n
  omega

/-- Of the numbers with one digit on a finer grid the last is at nine tenths of the next power of
ten. -/
theorem ten_mul_grid_le {n : Nat} {e e' : Int} (digit : digitCount n = 1) (finer : e < e') :
    10 * (n * grid e) ≤ 9 * grid e' := by
  have small : (n : ℚ) ≤ 9 := by
    have := lt_ten_pow n
    rw [digit] at this
    exact_mod_cast (by omega : n ≤ 9)
  have tenth : 10 * grid e ≤ grid e' := by
    have next := grid_add e 1
    rw [Nat.cast_one, pow_one] at next
    rw [← next]
    exact grid_mono (by omega)
  have step := grid_pos e
  nlinarith

/-- A decimal of one digit is no farther from the double than the power of ten of its grid, which
lies in the interval if anything below it does. -/
theorem Found.nearest_power {tie : Tie} {m s : Nat} {d : Decimal} (found : Found tie m s d)
    (pos : 0 < m) (one : digitCount d.coefficient = 1) {q : ℚ} (inside : (interval m s).Has q)
    (below : q ≤ grid d.exponent) :
    |d.coefficient * grid d.exponent - quarters m s| ≤ |grid d.exponent - quarters m s| ∧
      grid d.exponent ≤ (interval m s).high := by
  obtain ⟨self, nearest⟩ := gridPoint?_nearest pos found.here
  have first : grid d.exponent ≤ d.coefficient * grid d.exponent := by
    have := grid_le (pos_of_has pos self) d.exponent
    rwa [one, Nat.sub_self, Nat.cast_zero, add_zero] at this
  have power := inside.between self below first
  have unit : (interval m s).Has ((1 : Nat) * grid d.exponent) := by
    rwa [Nat.cast_one, one_mul]
  have near := (nearest 1 unit).1
  rw [Nat.cast_one, one_mul] at near
  exact ⟨near, power.bounds.2⟩

/-- A double whose interval reaches up to a power of ten that exceeds it by a twentieth has a mantissa
of one digit and the least scale. -/
theorem small_of_far {m s : Nat} (canonical : Canonical m s) {power : ℚ}
    (high : power ≤ (interval m s).high) (far : 20 * quarters m s ≤ 19 * power) :
    m ≤ 9 ∧ s = 0 := by
  rw [cast_high] at high
  have place : (0 : ℚ) < 2 ^ s := pow_pos two_pos s
  have few : m ≤ 9 := by
    have : 4 * (m : ℚ) * 2 ^ s ≤ 38 * 2 ^ s := by
      rw [quarters] at *
      linarith
    have := le_of_mul_le_mul_right this place
    have : (m : ℚ) < 10 := by linarith
    exact_mod_cast Nat.le_of_lt_succ (by exact_mod_cast this)
  refine ⟨few, ?_⟩
  by_contra more
  have := canonical.full more
  omega

/-- On a finer grid no decimal with as many digits is as near. -/
theorem Found.lt_of_finer {tie : Tie} {m s : Nat} {d : Decimal} (found : Found tie m s d)
    (pos : 0 < m) (canonical : Canonical m s) {n : Nat} {e : Int}
    (inside : (interval m s).Has (n * grid e)) (finer : e < d.exponent)
    (same : digitCount n = digitCount d.coefficient) :
    |d.coefficient * grid d.exponent - quarters m s| < |n * grid e - quarters m s| := by
  have some := digitCount_pos d.coefficient
  have one := found.digitCount_eq_one pos inside (by omega)
  have short := ten_mul_grid_le (same.trans one) finer
  have step := grid_pos d.exponent
  obtain ⟨near, high⟩ := found.nearest_power pos one inside (by linarith)
  refine near.trans_lt ?_
  -- A decimal of one digit on a finer grid is below the power of ten of this one.
  rcases le_or_gt (grid d.exponent) (quarters m s) with below | above
  · rw [abs_of_nonpos (by linarith), abs_of_nonpos (by linarith)]
    linarith
  · rw [abs_of_pos (by linarith)]
    by_contra far
    rw [not_lt] at far
    -- Then the interval is wide, and that it is only for the least of the doubles.
    have wide := (neg_le_abs _).trans far
    obtain ⟨few, rfl⟩ := small_of_far canonical high (by linarith)
    rw [cast_high] at high
    rw [quarters, pow_zero, mul_one] at *
    exact not_grid_near pos few (by linarith) (by linarith)

/-- What the walk finds with ties going up is the shortest decimal. -/
theorem isShortest_of_found {m s : Nat} {d : Decimal} (found : Found .up m s d) (pos : 0 < m)
    (canonical : Canonical m s) : IsShortest m s d := by
  obtain ⟨self, nearest⟩ := gridPoint?_nearest pos found.here
  refine ⟨(readsAs_iff canonical d).mpr self, ?_, ?_, ?_⟩
  · intro other reads
    exact (found.fewest pos ((readsAs_iff canonical other).mp reads)).2
  · intro other reads same
    have inside := (readsAs_iff canonical other).mp reads
    rw [distance_le_iff]
    -- Another decimal with as few digits is on a finer grid, where none is as near, or on the
    -- same one.
    rcases Int.lt_or_eq_of_le (found.fewest pos inside).1 with finer | equal
    · exact (found.lt_of_finer pos canonical inside finer same).le
    · rw [equal] at inside ⊢
      exact (nearest _ inside).1
  · intro other reads same tied
    have inside := (readsAs_iff canonical other).mp reads
    have near : |d.coefficient * grid d.exponent - quarters m s|
        = |other.coefficient * grid other.exponent - quarters m s| := by
      rw [← distance_eq, ← distance_eq, tied]
    rcases Int.lt_or_eq_of_le (found.fewest pos inside).1 with finer | equal
    · exact absurd near (found.lt_of_finer pos canonical inside finer same).ne
    · rw [equal] at inside near
      have less : (other.coefficient : ℚ) ≤ d.coefficient :=
        Nat.cast_le.mpr ((nearest _ inside).2 rfl near)
      rw [Decimal.value, Decimal.value, equal]
      exact mul_le_mul_of_nonneg_right less (zpow_nonneg (by norm_num) _)

/-- The decimal that is found reads as the double, whichever way ties go. -/
theorem readsAs_shortest (tie : Tie) {m s : Nat} (pos : 0 < m) (canonical : Canonical m s) :
    ReadsAs m s (shortest tie m s) := by
  have found := found_shortest tie pos canonical
  exact (readsAs_iff canonical _).mpr (gridPoint?_nearest pos found.here).1

/-- The decimal that is found is the shortest. -/
theorem isShortest_shortest {m s : Nat} (pos : 0 < m) (canonical : Canonical m s) :
    IsShortest m s (shortest .up m s) :=
  isShortest_of_found (found_shortest .up pos canonical) pos canonical

/-- Of two decimals with one value and one number of digits, neither has the smaller exponent. -/
theorem exponent_le_of_value_eq {d d' : Decimal} (pos : 0 < d.coefficient)
    (same : d.value = d'.value) (count : digitCount d'.coefficient = digitCount d.coefficient) :
    d.exponent ≤ d'.exponent := by
  by_contra greater
  have some := digitCount_pos d.coefficient
  have less : d'.coefficient * grid d'.exponent < d.coefficient * grid d.exponent :=
    (lt_grid (Nat.le_refl _) (by omega)).trans_le (grid_le pos d.exponent)
  rw [← value_mul_grid, ← value_mul_grid, same] at less
  exact lt_irrefl _ less

/-- There is no other. -/
theorem IsShortest.unique {m s : Nat} {d d' : Decimal} (short : IsShortest m s d)
    (short' : IsShortest m s d') (pos : 0 < m) (canonical : Canonical m s) : d = d' := by
  -- Each of the two is as good as the other in every respect, so they have one value.
  have count := le_antisymm (short.fewest d' short'.reads) (short'.fewest d short.reads)
  have near := le_antisymm (short.nearest d' short'.reads count.symm)
    (short'.nearest d short.reads count)
  have same := le_antisymm (short'.greatest d short.reads count near)
    (short.greatest d' short'.reads count.symm near.symm)
  have some := pos_of_has pos ((readsAs_iff canonical d).mp short.reads)
  have some' := pos_of_has pos ((readsAs_iff canonical d').mp short'.reads)
  have exponent := le_antisymm (exponent_le_of_value_eq some same count.symm)
    (exponent_le_of_value_eq some' same.symm count)
  have tens : (10 : ℚ) ^ d'.exponent ≠ 0 := zpow_ne_zero _ (by norm_num)
  rw [Decimal.value, Decimal.value, exponent, mul_left_inj' tens, Nat.cast_inj] at same
  cases d
  cases d'
  cases same
  cases exponent
  rfl

end Binary64

end Linework
