import Linework.Proofs.Number.ReadingBack

/-!
# `Linework.Proofs.Number.Spelling`: where the point of a printed number stands

A hint shows a double with the digits of its shortest decimal, and `spelled` is the text that
those digits and the place of the point make. It is the rule that scripting languages have for
turning numbers into text.

The printer decides otherwise whether there is an exponent. It compares the double itself with
the bounds `1e-6` and `1e21`, before it has any digits. The shortest decimals of both bounds are
powers of ten, and shortest decimals are ordered as their doubles are
(`Binary64.IsShortest.value_le_iff`). So a double is below such a bound exactly if the point of
its digits says so (`Binary64.IsShortest.power_le_iff`, `hint_range`), also next to the bounds,
where digits are rounded.
-/

set_option autoImplicit false

namespace Linework

open NumberFormat Binary64

/-- The text of the number `0.d₁…dₖ · 10 ^ n`, told by where its point stands: behind all digits and
the zeros that are missing up to there, among the digits, before them and the zeros that lead up to
them, or too far on either side. Then it stands behind the first digit, and an exponent with its
sign says by how much it is off. -/
def spelled (ds : List Char) (n : Int) : List Char :=
  if ds.length ≤ n ∧ n ≤ 21 then ds ++ List.replicate (n - ds.length).toNat '0'
  else if 0 < n ∧ n ≤ 21 then ds.take n.toNat ++ '.' :: ds.drop n.toNat
  else if -6 < n ∧ n ≤ 0 then '0' :: '.' :: (List.replicate (-n).toNat '0' ++ ds)
  else
    ds.take 1 ++ (if ds.length = 1 then [] else '.' :: ds.drop 1)
      ++ 'e' :: (if 0 < n then '+' else '-') :: Nat.toDigits 10 (n - 1).natAbs

/-- The layout of hints follows the place of the point, where its range of sizes does. -/
theorem layout_eq_spelled {size : Float} {ds : List Char} {n : Int} (some : ds ≠ [])
    (range : hintFormat.range.holds size n = decide (-6 < n ∧ n ≤ 21)) :
    hintFormat.layout size ds n = spelled ds n := by
  have length := List.length_pos_iff.mpr some
  rw [layout, range, spelled]
  by_cases inPlain : -6 < n ∧ n ≤ 21
  · rw [if_pos (decide_eq_true inPlain), NumberFormat.plain]
    rcases Int.lt_or_le 0 n with positive | leading
    · rw [if_neg (by omega : ¬ n ≤ 0)]
      by_cases whole : ds.length ≤ n
      · have places : n.toNat - ds.length = (n - ds.length).toNat := by omega
        rw [if_pos (by omega), if_pos (c := ds.length ≤ n ∧ n ≤ 21) ⟨whole, inPlain.2⟩, places]
        exact List.append_nil _
      · rw [if_neg (by omega), if_neg (by omega), if_pos ⟨positive, inPlain.2⟩]
    · rw [if_pos leading, if_neg (by omega), if_neg (by omega), if_pos ⟨inPlain.1, leading⟩]
  · rw [if_neg (by simpa using inPlain), if_neg (by omega), if_neg (by omega), if_neg (by omega)]
    simp only [scientific, digits]
    have mark : (if n - 1 < 0 then '-' else '+') = if 0 < n then '+' else '-' := by
      split_ifs <;> first | rfl | omega
    rw [mark]
    obtain ⟨d, more, rfl⟩ := List.exists_cons_of_ne_nil some
    cases more <;> rfl

namespace Binary64

/-- The first digit of a decimal shows how it compares with a power of ten. -/
theorem ten_zpow_le_value_iff {d : Decimal} (pos : 0 < d.coefficient) (e : Int) :
    (10 : ℚ) ^ e ≤ d.value ↔ e < d.exponent + digitCount d.coefficient := by
  have some := digitCount_pos d.coefficient
  constructor
  · intro le
    -- With fewer places the decimal is below the power.
    by_contra far
    have less : d.coefficient * grid d.exponent < grid e := lt_grid (Nat.le_refl _) (by omega)
    rw [← value_mul_grid, grid, mul_lt_mul_iff_of_pos_right (pow_pos two_pos 1076)] at less
    exact absurd le less.not_ge
  · intro near
    have first := grid_le pos d.exponent
    have order := grid_mono (by omega : e ≤ d.exponent + (digitCount d.coefficient - 1 : Nat))
    have le := order.trans first
    rwa [← value_mul_grid, grid, mul_le_mul_iff_of_pos_right (pow_pos two_pos 1076)] at le

/-- The bits of a double tell its mantissa and its scale. -/
theorem eq_of_bits_eq {m s m' s' : Nat} (canonical : Canonical m s) (canonical' : Canonical m' s')
    (same : s * scaleUnit + m = s' * scaleUnit + m') : m = m' ∧ s = s' := by
  have first := parts_ofMagnitudeBits false canonical
  rw [same, parts_ofMagnitudeBits false canonical'] at first
  cases first
  exact ⟨rfl, rfl⟩

/-- Shortest decimals are ordered as their doubles are. -/
theorem IsShortest.value_le_iff {m s m' s' : Nat} {d d' : Decimal} (short : IsShortest m s d)
    (short' : IsShortest m' s' d') (pos : 0 < m) (canonical : Canonical m s)
    (canonical' : Canonical m' s') :
    d'.value ≤ d.value ↔ s' * scaleUnit + m' ≤ s * scaleUnit + m := by
  have reads : Literal.decimalBits d.coefficient d.exponent = s * scaleUnit + m := short.reads
  have reads' : Literal.decimalBits d'.coefficient d'.exponent = s' * scaleUnit + m' := short'.reads
  constructor
  · intro le
    have order := decimalBits_mono le
    rwa [reads, reads'] at order
  · intro le
    by_contra less
    have order := decimalBits_mono (not_le.mp less).le
    rw [reads, reads'] at order
    -- Decimals of the same double are equal, so none of them is less.
    obtain ⟨rfl, rfl⟩ := eq_of_bits_eq canonical canonical' (le_antisymm order le)
    rw [short.unique short' pos canonical] at less
    exact less (le_refl _)

/-- A double is no less than one whose shortest decimal is a power of ten exactly if its own
shortest decimal is no less than that power. -/
theorem IsShortest.power_le_iff {m s m' s' : Nat} {d : Decimal} {e : Int} (short : IsShortest m s d)
    (pos : 0 < m) (canonical : Canonical m s) (pos' : 0 < m') (canonical' : Canonical m' s')
    (power : shortest .up m' s' = ⟨1, e⟩) :
    s' * scaleUnit + m' ≤ s * scaleUnit + m ↔ e < d.exponent + digitCount d.coefficient := by
  have self := isShortest_shortest pos' canonical'
  have some := pos_of_has pos ((readsAs_iff canonical d).mp short.reads)
  rw [power] at self
  rw [← short.value_le_iff self pos canonical canonical', ← ten_zpow_le_value_iff some,
    Decimal.value, Nat.cast_one, one_mul]

end Binary64

/-- The sizes that hints print without an exponent are those with a point in the right place. -/
theorem hint_range {x : Float} {negative : Bool} {m s : Nat} {d : Decimal}
    (number : parts x = .finite negative m s) (pos : 0 < m) (short : IsShortest m s d) :
    hintFormat.range.holds x.abs (d.exponent + digitCount d.coefficient)
      = decide (-6 < d.exponent + digitCount d.coefficient
          ∧ d.exponent + digitCount d.coefficient ≤ 21) := by
  have canonical := canonical_of_parts number
  have size := parts_abs number
  have least : parts 1e-6 = .finite false 4722366482869645 1002 := by decide +kernel
  have bound : parts 1e21 = .finite false 7629394531250000 1091 := by decide +kernel
  -- The shortest decimals of both bounds are powers of ten, so the bounds are places of the point.
  have above : (1e-6 : Float) ≤ x.abs ↔ -6 < d.exponent + digitCount d.coefficient := by
    rw [le_iff_bits least size (by decide) pos]
    exact short.power_le_iff pos canonical (by decide) (canonical_of_parts least)
      (by decide +kernel)
  have below : x.abs < (1e21 : Float) ↔ d.exponent + digitCount d.coefficient ≤ 21 := by
    rw [lt_iff_bits size bound pos (by decide), ← Nat.not_le, ← Int.not_lt, not_iff_not]
    exact short.power_le_iff pos canonical (by decide) (canonical_of_parts bound)
      (by decide +kernel)
  show (decide ((1e-6 : Float) ≤ x.abs) && decide (x.abs < (1e21 : Float))) = _
  simp only [above, below, Bool.decide_and]

/-- A finite double other than zero is printed with the digits of its shortest decimal, of which
there is one, and the place of the point alone decides how they are laid out. -/
theorem formatNumber_eq_spelled {x : Float} {negative : Bool} {m s : Nat}
    (number : parts x = .finite negative m s) (pos : 0 < m) :
    ∃ d : Decimal, (∀ other, IsShortest m s other ↔ other = d) ∧
      formatNumber x = String.ofList ((if negative then ['-'] else [])
        ++ spelled (digits d.coefficient) (d.exponent + (digits d.coefficient).length)) := by
  have canonical := canonical_of_parts number
  have short := isShortest_shortest pos canonical
  have laidOut : hintFormat.magnitude x.abs m s = _ :=
    layout_eq_spelled Nat.toDigits_ne_nil (hint_range number pos short)
  refine ⟨shortest .up m s, fun other => ⟨fun h => h.unique short pos canonical, ?_⟩, ?_⟩
  · rintro rfl
    exact short
  · rw [formatNumber_finite number pos, laidOut]
    rfl

/-- So it is with the greatest double that is printed without an exponent. -/
theorem formatNumber_below_bound :
    parts 999999999999999868928 = .finite false 7629394531249999 1091 ∧ 0 < 7629394531249999 ∧
      ∃ d : Decimal, (∀ other, IsShortest 7629394531249999 1091 other ↔ other = d) ∧
        formatNumber 999999999999999868928 = String.ofList ((if false then ['-'] else [])
          ++ spelled (digits d.coefficient) (d.exponent + (digits d.coefficient).length)) := by
  have number : parts 999999999999999868928 = .finite false 7629394531249999 1091 := by
    decide +kernel
  exact ⟨number, by decide, formatNumber_eq_spelled number (by decide)⟩

/-- The first double that is printed with an exponent, and the last that is not. -/
example : [formatNumber 1e21, formatNumber 999999999999999868928]
    = ["1e+21", "999999999999999900000"] := by
  decide +kernel

end Linework
