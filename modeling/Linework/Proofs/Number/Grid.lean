import Linework.Number.Layout
import Linework.Proofs.Number.Interval

/-!
# `Linework.Proofs.Number.Grid`: the walk over the decimal grids

Decimals with a given exponent are the points of a grid, and `Binary64.gridPoint?` looks at two of
them, the one below a double and the next. That is enough. If any point of the grid lies in the
double's interval, one of the two does (`Binary64.not_has_of_gridPoint?_eq_none`), and the one that
is taken is the nearest (`Binary64.gridPoint?_nearest`).

The walk goes from coarse grids to fine ones and takes no more than twenty steps. The first grid is
coarser than the whole interval (`Binary64.high_lt_grid`), so none before it is missed. On the last
there are points that are nearer to the double than the ends of the interval (`Binary64.grid_lt`),
so the walk ends there at the latest. Both rest on bounds for the decimal logarithm of two that are
good for all exponents of doubles.

`Binary64.Found` is what the walk guarantees, and it leaves no zeros at the end to strip
(`Binary64.found_shortest`).
-/

set_option autoImplicit false

namespace Linework.Binary64

/-! ## Intervals -/

/-- Whether a number of quarter units lies in an interval. -/
def Interval.Has (i : Interval) (q : ℚ) : Prop :=
  if i.closed then i.low ≤ q ∧ q ≤ i.high else i.low < q ∧ q < i.high

/-- The test on a fraction is about its quotient alone. -/
theorem Interval.holds_iff_has (i : Interval) (num : Nat) {den : Nat} (pos : 0 < den) :
    i.holds num den = true ↔ i.Has (num / den) := by
  have pos : (0 : ℚ) < den := Nat.cast_pos.mpr pos
  rw [Interval.holds, Interval.Has]
  split_ifs
  · rw [le_div_iff₀ pos, div_le_iff₀ pos, Bool.and_eq_true, decide_eq_true_eq, decide_eq_true_eq]
    norm_cast
  · rw [lt_div_iff₀ pos, div_lt_iff₀ pos, Bool.and_eq_true, decide_eq_true_eq, decide_eq_true_eq]
    norm_cast

/-- What lies between two numbers of an interval is in it. -/
theorem Interval.Has.between {i : Interval} {a b c : ℚ} (first : i.Has a) (last : i.Has c)
    (above : a ≤ b) (below : b ≤ c) : i.Has b := by
  unfold Interval.Has at *
  split_ifs at *
  · exact ⟨first.1.trans above, below.trans last.2⟩
  · exact ⟨first.1.trans_le above, below.trans_lt last.2⟩

/-- What is in an interval is not beyond its ends. -/
theorem Interval.Has.bounds {i : Interval} {q : ℚ} (inside : i.Has q) : i.low ≤ q ∧ q ≤ i.high := by
  unfold Interval.Has at inside
  split_ifs at inside
  · exact inside
  · exact ⟨inside.1.le, inside.2.le⟩

/-- What is properly between the ends is in the interval, whether these are or not. -/
theorem Interval.has_of_lt {i : Interval} {q : ℚ} (above : i.low < q) (below : q < i.high) :
    i.Has q := by
  unfold Interval.Has
  split_ifs
  · exact ⟨above.le, below.le⟩
  · exact ⟨above, below⟩

/-- A double in quarter units. -/
def quarters (m s : Nat) : ℚ := 4 * m * 2 ^ s

/-- Where an interval begins. -/
theorem cast_low (m s : Nat) (pos : 0 < m) :
    ((interval m s).low : ℚ) = quarters m s - slack m s * 2 ^ s := by
  -- The subtraction does not reach below zero.
  have small : slack m s ≤ 4 * m := by
    unfold slack
    split_ifs <;> omega
  show ((((4 * m - slack m s) <<< s : Nat)) : ℚ) = _
  rw [Nat.shiftLeft_eq, Nat.cast_mul, Nat.cast_sub small, quarters]
  push_cast
  ring

/-- Where it ends, always half a place above the double. -/
theorem cast_high (m s : Nat) : ((interval m s).high : ℚ) = quarters m s + 2 * 2 ^ s := by
  show ((((4 * m + 2) <<< s : Nat)) : ℚ) = _
  rw [Nat.shiftLeft_eq, quarters]
  push_cast
  ring

/-- It begins half a place below the double, or a quarter. -/
theorem slack_bounds (m s : Nat) : 1 ≤ slack m s ∧ slack m s ≤ 2 := by
  unfold slack
  split_ifs <;> omega

/-- A double lies in its own interval. -/
theorem has_quarters {m : Nat} (pos : 0 < m) (s : Nat) : (interval m s).Has (quarters m s) := by
  have place : (0 : ℚ) < 2 ^ s := pow_pos two_pos s
  have some : (1 : ℚ) ≤ slack m s := by exact_mod_cast (slack_bounds m s).1
  refine Interval.has_of_lt ?_ ?_
  · rw [cast_low m s pos]
    nlinarith
  · rw [cast_high]
    linarith

/-! ## Grids -/

/-- The distance between the points of a decimal grid, in quarter units. -/
def grid (exponent : Int) : ℚ := 10 ^ exponent * 2 ^ 1076

/-- Points of a grid are apart. -/
theorem grid_pos (e : Int) : 0 < grid e :=
  mul_pos (zpow_pos (by norm_num) e) (pow_pos two_pos 1076)

/-- To shift a number is to multiply it by a power of two. -/
theorem cast_shiftLeft (n places : Nat) : ((n <<< places : Nat) : ℚ) = n * 2 ^ places := by
  rw [Nat.shiftLeft_eq, Nat.cast_mul, Nat.cast_pow, Nat.cast_ofNat]

/-- A power of ten as a fraction, one part of which is one. -/
theorem ten_zpow_eq_div (e : Int) : (10 : ℚ) ^ e = 10 ^ e.toNat / 10 ^ (-e).toNat := by
  rw [← zpow_natCast, ← zpow_natCast, ← zpow_sub₀ (by norm_num)]
  congr 1
  omega

/-- The distance on a grid as the fraction that is computed with. -/
theorem grid_eq_div (e : Int) : grid e = Decimal.scaleNum e / Decimal.scaleDen e := by
  have power (n : Nat) : ((Nat.pow 10 n : Nat) : ℚ) = 10 ^ n := by
    rw [Nat.pow_eq, Nat.cast_pow, Nat.cast_ofNat]
  have num : ((Decimal.scaleNum e : Nat) : ℚ) = 10 ^ e.toNat * 2 ^ 1076 := by
    unfold Decimal.scaleNum
    rw [← power]
    exact cast_shiftLeft _ _
  have den : ((Decimal.scaleDen e : Nat) : ℚ) = 10 ^ (-e).toNat := power _
  rw [grid, ten_zpow_eq_div, num, den]
  exact div_mul_eq_mul_div ..

/-- Grids with greater exponents are coarser by powers of ten. -/
theorem grid_add (e : Int) (n : Nat) : grid (e + n) = 10 ^ n * grid e := by
  rw [grid, grid, zpow_add₀ (by norm_num), zpow_natCast, mul_comm (10 ^ e), mul_assoc]

/-- So they are not finer. -/
theorem grid_mono {e e' : Int} (h : e ≤ e') : grid e ≤ grid e' :=
  mul_le_mul_of_nonneg_right (zpow_le_zpow_right₀ (by norm_num) h) (pow_pos two_pos 1076).le

/-- The fraction of a grid is not zero. -/
theorem scaleNum_pos (e : Int) : 0 < Decimal.scaleNum e :=
  shiftLeft_pos (Nat.pow_pos (by decide)) _

/-- And it can be divided by. -/
theorem scaleDen_pos (e : Int) : 0 < Decimal.scaleDen e :=
  Nat.pow_pos (by decide)

/-- The test on a point of a grid, as it is computed. -/
theorem holds_iff_has_grid (i : Interval) (n : Nat) (e : Int) :
    i.holds (n * Decimal.scaleNum e) (Decimal.scaleDen e) = true ↔ i.Has (n * grid e) := by
  rw [i.holds_iff_has _ (scaleDen_pos e), Nat.cast_mul, grid_eq_div, mul_div_assoc]

/-- The grid point below a double. -/
def floorPoint (m s : Nat) (e : Int) : Nat :=
  (4 * m) <<< s * Decimal.scaleDen e / Decimal.scaleNum e

/-- A double has a whole number of quarter units. -/
theorem quarters_eq_cast (m s : Nat) : quarters m s = (((4 * m) <<< s : Nat) : ℚ) := by
  rw [cast_shiftLeft, quarters, Nat.cast_mul, Nat.cast_ofNat]

/-- A comparison of distances on a grid is one of whole numbers. -/
theorem mul_grid_le_iff (n k : Nat) (e : Int) :
    n * grid e ≤ k ↔ n * Decimal.scaleNum e ≤ k * Decimal.scaleDen e := by
  have pos : (0 : ℚ) < Decimal.scaleDen e := Nat.cast_pos.mpr (scaleDen_pos e)
  rw [grid_eq_div, ← mul_div_assoc, div_le_iff₀ pos]
  norm_cast

/-- And so it is the other way round. -/
theorem le_mul_grid_iff (n k : Nat) (e : Int) :
    k ≤ n * grid e ↔ k * Decimal.scaleDen e ≤ n * Decimal.scaleNum e := by
  have pos : (0 : ℚ) < Decimal.scaleDen e := Nat.cast_pos.mpr (scaleDen_pos e)
  rw [grid_eq_div, ← mul_div_assoc, le_div_iff₀ pos]
  norm_cast

/-- The point below is not above the double. -/
theorem floorPoint_le (m s : Nat) (e : Int) : floorPoint m s e * grid e ≤ quarters m s := by
  rw [quarters_eq_cast, mul_grid_le_iff]
  exact Nat.div_mul_le_self ..

/-- The next point is. -/
theorem lt_floorPoint_succ (m s : Nat) (e : Int) :
    quarters m s < (floorPoint m s e + 1 : Nat) * grid e := by
  rw [quarters_eq_cast, ← not_le, mul_grid_le_iff, not_le]
  exact Nat.lt_mul_of_div_lt (Nat.lt_succ_self _) (scaleNum_pos e)

/-- How far the two candidates of a grid are from the double. -/
theorem floorPoint_distances (m s : Nat) (e : Int) :
    ((4 * m) <<< s * Decimal.scaleDen e - floorPoint m s e * Decimal.scaleNum e
        < (floorPoint m s e + 1) * Decimal.scaleNum e - (4 * m) <<< s * Decimal.scaleDen e ↔
      quarters m s - floorPoint m s e * grid e
        < (floorPoint m s e + 1 : Nat) * grid e - quarters m s) ∧
    ((floorPoint m s e + 1) * Decimal.scaleNum e - (4 * m) <<< s * Decimal.scaleDen e
        < (4 * m) <<< s * Decimal.scaleDen e - floorPoint m s e * Decimal.scaleNum e ↔
      (floorPoint m s e + 1 : Nat) * grid e - quarters m s
        < quarters m s - floorPoint m s e * grid e) := by
  have pos : (0 : ℚ) < Decimal.scaleDen e := Nat.cast_pos.mpr (scaleDen_pos e)
  have low := floorPoint_le m s e
  have high := (lt_floorPoint_succ m s e).le
  rw [quarters_eq_cast, mul_grid_le_iff] at low
  rw [quarters_eq_cast, le_mul_grid_iff] at high
  -- Both sides are multiplied by the denominator, where the distances are whole numbers.
  have scaled (n : Nat) : n * grid e * Decimal.scaleDen e = n * Decimal.scaleNum e := by
    rw [grid_eq_div, mul_assoc, div_mul_cancel₀ _ pos.ne']
  rw [quarters_eq_cast]
  generalize (4 * m) <<< s = value at *
  generalize floorPoint m s e = below at *
  have left : (value - below * grid e) * Decimal.scaleDen e
      = ((value * Decimal.scaleDen e - below * Decimal.scaleNum e : Nat) : ℚ) := by
    rw [sub_mul, scaled, Nat.cast_sub low, Nat.cast_mul, Nat.cast_mul]
  have right : ((below + 1 : Nat) * grid e - value) * Decimal.scaleDen e
      = (((below + 1) * Decimal.scaleNum e - value * Decimal.scaleDen e : Nat) : ℚ) := by
    rw [sub_mul, scaled, Nat.cast_sub high, Nat.cast_mul, Nat.cast_mul]
  constructor
  · rw [← mul_lt_mul_iff_of_pos_right pos, left, right, Nat.cast_lt]
  · rw [← mul_lt_mul_iff_of_pos_right pos, left, right, Nat.cast_lt]

/-- The two candidates on a grid, and which of them is taken. -/
theorem gridPoint?_cases {tie : Tie} {m s p : Nat} {e : Int}
    (found : gridPoint? tie m s e = some p) :
    let i := interval m s
    let below := floorPoint m s e
    let toBelow := quarters m s - below * grid e
    let toAbove := (below + 1 : Nat) * grid e - quarters m s
    (p = below ∧ i.Has (below * grid e) ∧
      (i.Has ((below + 1 : Nat) * grid e) →
        toBelow ≤ toAbove ∧ (tie = .up → toBelow ≠ toAbove))) ∨
    (p = below + 1 ∧ i.Has ((below + 1 : Nat) * grid e) ∧
      (i.Has (below * grid e) → toAbove ≤ toBelow)) := by
  intro i below toBelow toAbove
  obtain ⟨nearer, farther⟩ := floorPoint_distances m s e
  have first := holds_iff_has_grid i below e
  have second := holds_iff_has_grid i (below + 1) e
  simp only [gridPoint?] at found
  -- The four cases are which of the two candidates are in the interval; with both, the nearer one
  -- is taken.
  split at found
  · rename_i inside outside
    cases found
    exact .inl ⟨rfl, first.mp inside, fun has =>
      absurd (outside.symm.trans (second.mpr has)) Bool.false_ne_true⟩
  · rename_i outside inside
    cases found
    exact .inr ⟨rfl, second.mp inside, fun has =>
      absurd (outside.symm.trans (first.mpr has)) Bool.false_ne_true⟩
  · cases found
  · rename_i inside inside'
    have low := first.mp inside
    have high := second.mp inside'
    split at found
    · rename_i near
      cases found
      have less := nearer.mp near
      exact .inl ⟨rfl, low, fun _ => ⟨less.le, fun _ => less.ne⟩⟩
    rename_i near
    split at found
    · rename_i far
      cases found
      exact .inr ⟨rfl, high, fun _ => (farther.mp far).le⟩
    rename_i far
    -- Neither is nearer, so the tie decides.
    have same : toBelow = toAbove :=
      le_antisymm (not_lt.mp (mt farther.mpr far)) (not_lt.mp (mt nearer.mpr near))
    cases tie with
    | up =>
      cases found
      exact .inr ⟨rfl, high, fun _ => same.ge⟩
    | toEven =>
      have chosen := Option.some.inj found
      split at chosen
      · exact .inl ⟨chosen.symm, low, fun _ => ⟨same.le, fun up => by cases up⟩⟩
      · exact .inr ⟨chosen.symm, high, fun _ => same.ge⟩

/-- Points of a grid on either side of a double are no nearer than the candidates. -/
theorem le_floorPoint_or (m s : Nat) (e : Int) (n : Nat) :
    n ≤ floorPoint m s e ∧ n * grid e ≤ floorPoint m s e * grid e ∨
      floorPoint m s e + 1 ≤ n ∧ (floorPoint m s e + 1 : Nat) * grid e ≤ n * grid e := by
  have step {a b : Nat} (h : a ≤ b) : (a : ℚ) * grid e ≤ b * grid e :=
    mul_le_mul_of_nonneg_right (Nat.cast_le.mpr h) (grid_pos e).le
  rcases Nat.lt_or_ge (floorPoint m s e) n with above | below
  · exact .inr ⟨above, step above⟩
  · exact .inl ⟨below, step below⟩

/-- If a grid has no candidate, neither of the two next to the double is in the interval. -/
theorem holds_of_gridPoint?_eq_none {tie : Tie} {m s : Nat} {e : Int}
    (none : gridPoint? tie m s e = none) :
    ¬ (interval m s).Has (floorPoint m s e * grid e) ∧
      ¬ (interval m s).Has ((floorPoint m s e + 1 : Nat) * grid e) := by
  rw [← holds_iff_has_grid, ← holds_iff_has_grid]
  simp only [gridPoint?] at none
  split at none
  · cases none
  · cases none
  · rename_i low high
    exact ⟨Bool.not_eq_true _ ▸ low, Bool.not_eq_true _ ▸ high⟩
  · split at none
    · cases none
    split at none
    · cases none
    · cases tie <;> cases none

/-- Where a grid has no candidate, it has no point in the interval at all. -/
theorem not_has_of_gridPoint?_eq_none {tie : Tie} {m s : Nat} {e : Int} (pos : 0 < m)
    (none : gridPoint? tie m s e = none) (n : Nat) : ¬ (interval m s).Has (n * grid e) := by
  intro inside
  have self := has_quarters pos s
  obtain ⟨low, high⟩ := holds_of_gridPoint?_eq_none none
  -- A point of the grid in the interval would bring in the candidate between it and the double.
  rcases le_floorPoint_or m s e n with ⟨-, below⟩ | ⟨-, above⟩
  · exact low (inside.between self below (floorPoint_le m s e))
  · exact high (self.between inside (lt_floorPoint_succ m s e).le above)

/-- The point of a grid that is found lies in the interval. No other there is nearer to the double,
and if ties go up, none that is as near is greater. -/
theorem gridPoint?_nearest {tie : Tie} {m s p : Nat} {e : Int} (pos : 0 < m)
    (found : gridPoint? tie m s e = some p) :
    (interval m s).Has (p * grid e) ∧ ∀ n : Nat, (interval m s).Has (n * grid e) →
      |p * grid e - quarters m s| ≤ |n * grid e - quarters m s| ∧
        (tie = .up → |p * grid e - quarters m s| = |n * grid e - quarters m s| → n ≤ p) := by
  have self := has_quarters pos s
  have low := floorPoint_le m s e
  have high := lt_floorPoint_succ m s e
  have step := grid_pos e
  have less (n : Nat) (h : n * grid e ≤ floorPoint m s e * grid e) :
      |n * grid e - quarters m s| = quarters m s - n * grid e := by
    rw [abs_of_nonpos (by linarith), neg_sub]
  have greater (n : Nat) (h : (floorPoint m s e + 1 : Nat) * grid e ≤ n * grid e) :
      |n * grid e - quarters m s| = n * grid e - quarters m s :=
    abs_of_nonneg (by linarith)
  -- The candidate taken is below the double or above it, and so is any other point.
  rcases gridPoint?_cases found with ⟨rfl, inside, other⟩ | ⟨rfl, inside, other⟩
  · refine ⟨inside, fun n has => ?_⟩
    rw [less _ (le_refl _)]
    rcases le_floorPoint_or m s e n with ⟨small, below⟩ | ⟨-, above⟩
    · rw [less n below]
      exact ⟨by linarith, fun _ _ => small⟩
    · obtain ⟨near, tied⟩ := other (self.between has high.le above)
      rw [greater n above]
      refine ⟨by linarith, fun up same => absurd ?_ (tied up)⟩
      linarith
  · refine ⟨inside, fun n has => ?_⟩
    rw [greater _ (le_refl _)]
    rcases le_floorPoint_or m s e n with ⟨small, below⟩ | ⟨-, above⟩
    · have near := other (has.between self below low)
      rw [less n below]
      exact ⟨by linarith, fun _ _ => Nat.le_succ_of_le small⟩
    · rw [greater n above]
      refine ⟨by linarith, fun _ same => ?_⟩
      have equal : (n : ℚ) * grid e = (floorPoint m s e + 1 : Nat) * grid e := by linarith
      rw [mul_left_inj' step.ne', Nat.cast_inj] at equal
      exact equal.le

/-! ## Powers of two and of ten -/

/-- One comparison of powers gives others whose exponents are in proportion. -/
theorem pow_le_pow_of_pow_le {x y p q a b : Nat} (pos : 0 < p) (one : 1 ≤ y) (known : x ^ p ≤ y ^ q)
    (steps : a * q ≤ b * p) : x ^ a ≤ y ^ b := by
  refine (Nat.pow_le_pow_iff_left pos.ne').mp ?_
  calc (x ^ a) ^ p
    _ = (x ^ p) ^ a := by rw [← Nat.pow_mul, ← Nat.pow_mul, Nat.mul_comm]
    _ ≤ (y ^ q) ^ a := Nat.pow_le_pow_left known a
    _ = y ^ (a * q) := by rw [← Nat.pow_mul, Nat.mul_comm]
    _ ≤ y ^ (b * p) := Nat.pow_le_pow_right one steps
    _ = (y ^ b) ^ p := Nat.pow_mul ..

/-- The decimal logarithm of two is less than 0.30103. -/
theorem two_pow_le_ten_pow {n a : Nat} (steps : n * 30103 ≤ a * 100000) : 2 ^ n ≤ 10 ^ a := by
  have known : 2 ^ 100000 ≤ 10 ^ 30103 := by decide +kernel
  exact pow_le_pow_of_pow_le (by decide) (by decide) known steps

/-- It is greater than 8651 / 28738. -/
theorem ten_pow_le_two_pow {a n : Nat} (steps : a * 28738 ≤ n * 8651) : 10 ^ a ≤ 2 ^ n := by
  have known : 10 ^ 8651 ≤ 2 ^ 28738 := by decide +kernel
  exact pow_le_pow_of_pow_le (by decide) (by decide) known steps

/-- A power of ten that is no less than a given power of two. -/
theorem two_zpow_le {b : Int} (low : -2000 ≤ b) : (2 : ℚ) ^ b ≤ 10 ^ (b * 30103 / 100000 + 1) := by
  -- Below zero the powers change places with their inverses, so the other of the two bounds is
  -- used.
  rcases Int.lt_or_le b 0 with negative | whole
  · obtain ⟨n, hn⟩ : ∃ n : Nat, b = -(n : Int) := ⟨(-b).toNat, by omega⟩
    obtain ⟨a, ha⟩ : ∃ a : Nat, b * 30103 / 100000 + 1 = -(a : Int) :=
      ⟨(-(b * 30103 / 100000 + 1)).toNat, by omega⟩
    have bound : 10 ^ a ≤ 2 ^ n := ten_pow_le_two_pow (by omega)
    rw [ha, hn, zpow_neg, zpow_neg, zpow_natCast, zpow_natCast]
    exact inv_anti₀ (by positivity) (by exact_mod_cast bound)
  · obtain ⟨n, hn⟩ : ∃ n : Nat, b = n := ⟨b.toNat, by omega⟩
    obtain ⟨a, ha⟩ : ∃ a : Nat, b * 30103 / 100000 + 1 = a :=
      ⟨(b * 30103 / 100000 + 1).toNat, by omega⟩
    have bound : 2 ^ n ≤ 10 ^ a := two_pow_le_ten_pow (by omega)
    rw [ha, hn, zpow_natCast, zpow_natCast]
    exact_mod_cast bound

/-- The power of ten before that is at most twice as great. -/
theorem ten_zpow_le {b : Int} (high : b ≤ 2000) :
    (10 : ℚ) ^ (b * 30103 / 100000) ≤ 2 ^ (b + 1) := by
  rcases Int.lt_or_le b 0 with negative | whole
  · obtain ⟨n, hn⟩ : ∃ n : Nat, b + 1 = -(n : Int) := ⟨(-(b + 1)).toNat, by omega⟩
    obtain ⟨a, ha⟩ : ∃ a : Nat, b * 30103 / 100000 = -(a : Int) :=
      ⟨(-(b * 30103 / 100000)).toNat, by omega⟩
    have bound : 2 ^ n ≤ 10 ^ a := two_pow_le_ten_pow (by omega)
    rw [ha, hn, zpow_neg, zpow_neg, zpow_natCast, zpow_natCast]
    exact inv_anti₀ (by positivity) (by exact_mod_cast bound)
  · obtain ⟨n, hn⟩ : ∃ n : Nat, b + 1 = n := ⟨(b + 1).toNat, by omega⟩
    obtain ⟨a, ha⟩ : ∃ a : Nat, b * 30103 / 100000 = a :=
      ⟨(b * 30103 / 100000).toNat, by omega⟩
    have bound : 10 ^ a ≤ 2 ^ n := ten_pow_le_two_pow (by omega)
    rw [ha, hn, zpow_natCast, zpow_natCast]
    exact_mod_cast bound

/-! ## The walk over the grids -/

/-- Where the leading bit of a double stands, in a number of quarter units. -/
theorem two_zpow_mul (m s : Nat) :
    (2 : ℚ) ^ ((m.log2 + 1 + s : Int) - 1074) * 2 ^ 1076 = 4 * 2 ^ (m.log2 + 1) * 2 ^ s := by
  have four : (4 : ℚ) = 2 ^ (2 : Int) := by norm_num
  rw [four, ← zpow_natCast, ← zpow_natCast, ← zpow_natCast, ← zpow_add₀ two_ne_zero,
    ← zpow_add₀ two_ne_zero, ← zpow_add₀ two_ne_zero]
  congr 1
  omega

/-- The first grid is too coarse for any point but zero. -/
theorem high_lt_grid (m s : Nat) : (interval m s).high < grid (coarsestExponent m s) := by
  have place : (0 : ℚ) < 2 ^ s := pow_pos two_pos s
  have bits : ((m + 1 : Nat) : ℚ) ≤ (2 ^ (m.log2 + 1) : Nat) := Nat.cast_le.mpr Nat.lt_log2_self
  push_cast at bits
  have power := two_zpow_le (b := (m.log2 + 1 + s : Int) - 1074) (by omega)
  -- The end of the interval is below the next power of two, and that is no more than the power of
  -- ten.
  calc ((interval m s).high : ℚ)
    _ = (4 * m + 2) * 2 ^ s := by rw [cast_high, quarters]; ring
    _ < 4 * 2 ^ (m.log2 + 1) * 2 ^ s := mul_lt_mul_of_pos_right (by linarith) place
    _ = 2 ^ ((m.log2 + 1 + s : Int) - 1074) * 2 ^ 1076 := (two_zpow_mul m s).symm
    _ ≤ grid (coarsestExponent m s) :=
      mul_le_mul_of_nonneg_right power (pow_pos two_pos 1076).le

/-- The last grid has points at a smaller distance than the ends of the interval. -/
theorem grid_lt {m s : Nat} (canonical : Canonical m s) :
    grid (coarsestExponent m s - 19) < 2 * 2 ^ s := by
  have unit : scaleUnit = 2 ^ 52 := by decide
  obtain ⟨short, -, finite⟩ := canonical
  rw [infinityBits, unit] at finite
  have place : (0 : ℚ) < 2 ^ s := pow_pos two_pos s
  have bits : m.log2 + 1 ≤ 53 := by
    rcases Nat.eq_zero_or_pos m with rfl | pos
    · decide
    · exact (Nat.log2_lt (by omega)).mpr short
  have long : (2 : ℚ) ^ (m.log2 + 1) ≤ 2 ^ 53 := pow_le_pow_right₀ one_le_two bits
  have power := ten_zpow_le (b := (m.log2 + 1 + s : Int) - 1074) (by omega)
  have last : coarsestExponent m s - 19
      = ((m.log2 + 1 + s : Int) - 1074) * 30103 / 100000 - 18 := by
    rw [coarsestExponent]
    omega
  have scaled := mul_le_mul_of_nonneg_right power (pow_pos two_pos 1076 : (0 : ℚ) < 2 ^ 1076).le
  rw [zpow_add_one₀ two_ne_zero, mul_right_comm _ (2 : ℚ), two_zpow_mul] at scaled
  have tens : (10 : ℚ) ^ (18 : Int) = 10 ^ 18 := by norm_num
  rw [grid, last, zpow_sub₀ (by norm_num), div_mul_eq_mul_div, tens, div_lt_iff₀ (by positivity)]
  -- Eighteen grids further on a mantissa of 53 bits is more than made up for.
  calc (10 : ℚ) ^ (((m.log2 + 1 + s : Int) - 1074) * 30103 / 100000) * 2 ^ 1076
    _ ≤ 4 * 2 ^ (m.log2 + 1) * 2 ^ s * 2 := scaled
    _ ≤ 4 * 2 ^ 53 * 2 ^ s * 2 := by gcongr
    _ < 2 * 2 ^ s * 10 ^ 18 := by linarith

/-- Zero lies in the interval of no other number. -/
theorem pos_of_has {m s n : Nat} {e : Int} (pos : 0 < m)
    (inside : (interval m s).Has (n * grid e)) : 0 < n := by
  rcases Nat.eq_zero_or_pos n with rfl | some
  · have low := inside.bounds.1
    have place : (0 : ℚ) < 2 ^ s := pow_pos two_pos s
    have least : (1 : ℚ) ≤ m := by exact_mod_cast pos
    have most : (slack m s : ℚ) ≤ 2 := by exact_mod_cast (slack_bounds m s).2
    rw [cast_low m s pos, quarters, Nat.cast_zero, zero_mul] at low
    nlinarith
  · exact some

/-- No grid as coarse as the first has a point in the interval. -/
theorem not_has_above {m s : Nat} (pos : 0 < m) {e : Int} (above : coarsestExponent m s ≤ e)
    (n : Nat) : ¬ (interval m s).Has (n * grid e) := by
  intro inside
  -- The point would be one of at least the first step of the grid.
  have least : (1 : ℚ) ≤ n := by exact_mod_cast pos_of_has pos inside
  have high := inside.bounds.2
  have first := high_lt_grid m s
  have order := grid_mono above
  nlinarith [grid_pos e]

/-- The walk stops at the first grid that has a candidate. -/
theorem firstGridPoint?_eq_some {tie : Tie} {m s steps : Nat} {e : Int} {d : Decimal}
    (found : firstGridPoint? tie m s steps e = some d) :
    gridPoint? tie m s d.exponent = some d.coefficient ∧
      ∀ e', d.exponent < e' → e' ≤ e → gridPoint? tie m s e' = none := by
  -- The induction is on the grids that are left, each finer by a power of ten.
  induction steps generalizing e with
  | zero => cases found
  | succ steps ih =>
    rw [firstGridPoint?] at found
    split at found
    · rename_i point here
      cases found
      exact ⟨here, fun e' above below => absurd above (by simpa using below)⟩
    · rename_i here
      obtain ⟨there, before⟩ := ih found
      refine ⟨there, fun e' above below => ?_⟩
      rcases Int.lt_or_eq_of_le below with less | rfl
      · exact before e' above (by omega)
      · exact here

/-- Where it finds none, it has gone through all its grids. -/
theorem firstGridPoint?_eq_none {tie : Tie} {m s steps : Nat} {e : Int}
    (none : firstGridPoint? tie m s steps e = none) {e' : Int} (above : e - steps < e')
    (below : e' ≤ e) : gridPoint? tie m s e' = .none := by
  induction steps generalizing e with
  | zero => omega
  | succ steps ih =>
    rw [firstGridPoint?] at none
    split at none
    · cases none
    · rename_i here
      rcases Int.lt_or_eq_of_le below with less | rfl
      · exact ih none (by omega) (by omega)
      · exact here

/-- A decimal as the walk finds it: the best point of its grid, and no point of any coarser grid
reads as the double. -/
structure Found (tie : Tie) (m s : Nat) (d : Decimal) : Prop where
  here : gridPoint? tie m s d.exponent = some d.coefficient
  coarser : ∀ e, d.exponent < e → ∀ n : Nat, ¬ (interval m s).Has (n * grid e)

/-- The walk finds a decimal, for the last of its grids is fine enough. -/
theorem exists_firstGridPoint? (tie : Tie) {m s : Nat} (pos : 0 < m) (canonical : Canonical m s) :
    ∃ d, firstGridPoint? tie m s gridCount (coarsestExponent m s) = some d ∧ Found tie m s d := by
  cases walk : firstGridPoint? tie m s gridCount (coarsestExponent m s) with
  | none =>
    -- On the last grid the point above the double is near enough.
    have last : gridPoint? tie m s (coarsestExponent m s - 19) = none :=
      firstGridPoint?_eq_none walk (by rw [gridCount]; omega) (by omega)
    have low := floorPoint_le m s (coarsestExponent m s - 19)
    have high := lt_floorPoint_succ m s (coarsestExponent m s - 19)
    have fine := grid_lt canonical
    refine absurd (Interval.has_of_lt ?_ ?_) (not_has_of_gridPoint?_eq_none pos last
      (floorPoint m s (coarsestExponent m s - 19) + 1))
    · have self := (has_quarters pos s).bounds.1
      linarith
    · rw [cast_high]
      push_cast
      linarith
  | some d =>
    obtain ⟨here, before⟩ := firstGridPoint?_eq_some walk
    refine ⟨d, rfl, here, fun e above => ?_⟩
    -- Grids coarser than this one were passed on the walk or come before it.
    rcases Int.lt_or_le (coarsestExponent m s) e with outside | below
    · exact not_has_above pos outside.le
    · exact not_has_of_gridPoint?_eq_none pos (before e above below)

/-- A point that ends in a zero is one of the next coarser grid. -/
theorem Found.mod_ten_ne {tie : Tie} {m s : Nat} {d : Decimal} (found : Found tie m s d)
    (pos : 0 < m) : d.coefficient % 10 ≠ 0 := by
  intro zero
  have inside := (gridPoint?_nearest pos found.here).1
  have moved : (d.coefficient : ℚ) * grid d.exponent
      = (d.coefficient / 10 : Nat) * grid (d.exponent + 1) := by
    have split : (d.coefficient : ℚ) = (d.coefficient / 10 : Nat) * 10 := by
      exact_mod_cast (Nat.div_mul_cancel (Nat.dvd_of_mod_eq_zero zero)).symm
    have next := grid_add d.exponent 1
    rw [Nat.cast_one, pow_one] at next
    rw [next, ← mul_assoc, ← split]
  rw [moved] at inside
  exact found.coarser _ (by omega) _ inside

/-- There are no zeros to strip off a coefficient that ends in none. -/
theorem stripZeros_of_mod_ne {d : Decimal} (last : d.coefficient % 10 ≠ 0) : d.stripZeros = d := by
  rw [Decimal.stripZeros]
  cases d.coefficient.log2 with
  | zero => rfl
  | succ fuel => rw [Decimal.stripZeros.go, if_neg fun zeros => last zeros.2]

/-- So the search finds such a decimal. -/
theorem found_shortest (tie : Tie) {m s : Nat} (pos : 0 < m) (canonical : Canonical m s) :
    Found tie m s (shortest tie m s) := by
  obtain ⟨d, walk, found⟩ := exists_firstGridPoint? tie pos canonical
  rw [shortest, walk, Option.getD_some, stripZeros_of_mod_ne (found.mod_ten_ne pos)]
  exact found

end Linework.Binary64
