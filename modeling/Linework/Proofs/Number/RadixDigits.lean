import Linework.Proofs.Number.Grammar
import Linework.Proofs.Number.Rounding
import Mathlib

/-!
# `Linework.Proofs.Number.RadixDigits`: digits that are read one by one

The digits of a radix literal go into a double one after another, and each step rounds. The double
is exact as long as the digits make up less than `2 ^ 53`. A further digit still goes in whole, and
is rounded off with the rest. From then on the last place of the double is worth more than two of
any digit to come, so what comes adds nothing but a zero at the end. `kept` is the number with these
zeros, and reading leaves the double nearest to it (`accumulate_eq`).

The decimal numeral of a number is rounded once, from the number itself. So the two differ where
the lost digits would have turned the balance: `kept` lies halfway between two doubles, the lower
one is even, and so the literal goes down and the numeral up (`radix_spelling_agrees_iff`).
-/

set_option autoImplicit false

namespace Linework

open Binary64

namespace Binary64

/-- Something small behind a number tells in its rounded quotient only where the number lies
halfway and would be rounded down. -/
theorem roundHalfEven_add {unit rest : Nat} (pos : 0 < rest) (small : rest < unit) (count : Nat)
    (half : Nat) :
    roundHalfEven (unit * count + rest) (unit * (2 * half))
      = roundHalfEven (unit * count) (unit * (2 * half))
        + if count % (2 * half) = half ∧ count / (2 * half) % 2 = 0 then 1 else 0 := by
  have unitPos : 0 < unit := by omega
  have before : (unit * count + rest) / unit = count := by
    rw [Nat.mul_add_div unitPos, Nat.div_eq_of_lt small, Nat.add_zero]
  have after : (unit * count + rest) % unit = rest := by
    rw [Nat.mul_add_mod, Nat.mod_eq_of_lt small]
  have quotient : (unit * count + rest) / (unit * (2 * half)) = count / (2 * half) := by
    rw [← Nat.div_div_eq_div_mul, before]
  have remainder : (unit * count + rest) % (unit * (2 * half))
      = rest + unit * (count % (2 * half)) := by
    rw [Nat.mod_mul, before, after]
  have den : unit * (2 * half) = 2 * (unit * half) := by ring
  have steps (x y : Nat) (h : x < y) : unit * x + unit ≤ unit * y := by
    rw [← Nat.mul_succ]
    exact Nat.mul_le_mul_left _ h
  simp only [roundHalfEven, quotient, remainder, Nat.mul_div_mul_left _ _ unitPos,
    Nat.mul_mod_mul_left]
  rw [den]
  generalize count / (2 * half) = whole
  generalize count % (2 * half) = left
  -- Both compare with a half as the count does, but for a count of exactly a half.
  rcases Nat.lt_trichotomy left half with below | halfway | above
  · have := steps _ _ below
    split_ifs <;> omega
  · rw [halfway]
    split_ifs <;> omega
  · have := steps _ _ above
    split_ifs <;> omega

end Binary64

namespace Literal

/-- How many of the last digits are read as zeros: the digits before them make up at least
`2 ^ 53`. -/
def lostDigits (base n : Nat) : Nat := (n.log2 - 53) / base.log2

/-- The number with zeros for those digits. -/
def kept (base n : Nat) : Nat := n / base ^ lostDigits base n * base ^ lostDigits base n

/-- A number lies halfway between two doubles, and the lower one is the even one. -/
def TiesDown (n : Nat) : Prop :=
  2 * (n % 2 ^ (n.log2 - 52)) = 2 ^ (n.log2 - 52) ∧ n / 2 ^ (n.log2 - 52) % 2 = 0

instance (n : Nat) : Decidable (TiesDown n) := inferInstanceAs (Decidable (_ ∧ _))

/-- Where the lower neighbour is even, the leading bits are rounded to it. -/
theorem lead_even_of_tiesDown {n : Nat} (long : 52 ≤ n.log2) (ties : TiesDown n) :
    lead n % 2 = 0 := by
  obtain ⟨halfway, even⟩ := ties
  simp only [lead_of_le long, roundHalfEven, halfway, lt_self_iff_false, if_false, even]
  exact even

variable {width : Nat}

/-- No digit of a number below `2 ^ 53` is lost. -/
theorem lostDigits_of_lt (base : Nat) {n : Nat} (h : n < 2 ^ 53) : lostDigits base n = 0 := by
  have short : n.log2 - 53 = 0 := by
    rcases Nat.eq_zero_or_pos n with rfl | pos
    · rfl
    · have := (Nat.log2_lt (by omega)).mpr h
      omega
  rw [lostDigits, short, Nat.zero_div]

/-- So all of it is kept. -/
theorem kept_of_lt (base : Nat) {n : Nat} (h : n < 2 ^ 53) : kept base n = n := by
  rw [kept, lostDigits_of_lt base h, pow_zero, Nat.div_one, Nat.mul_one]

/-- One digit more is lost if there are enough without it. -/
theorem kept_concat (pos : 0 < width) {n d : Nat} (digit : d < 2 ^ width) :
    kept (2 ^ width) (n * 2 ^ width + d)
      = if n < 2 ^ 53 then n * 2 ^ width + d else kept (2 ^ width) n * 2 ^ width := by
  split_ifs with short
  -- The number with the digit has at most the bits that count and those of one digit.
  · have none : lostDigits (2 ^ width) (n * 2 ^ width + d) = 0 := by
      rcases Nat.eq_zero_or_pos n with rfl | some
      · rw [Nat.zero_mul, Nat.zero_add, lostDigits, Nat.log2_two_pow]
        refine Nat.div_eq_of_lt ?_
        rcases Nat.eq_zero_or_pos d with rfl | other
        · exact pos
        · have := (Nat.log2_lt (Nat.ne_of_gt other)).mpr digit
          omega
      · have bits := (Nat.log2_lt (Nat.ne_of_gt some)).mpr short
        rw [lostDigits, log2_mul_two_pow_add some digit, Nat.log2_two_pow]
        exact Nat.div_eq_of_lt (by omega)
    rw [kept, none, pow_zero, Nat.div_one, Nat.mul_one]
  · have some : 0 < n := by omega
    have bits : 53 ≤ n.log2 := (Nat.le_log2 (by omega)).mpr (by omega)
    have more : lostDigits (2 ^ width) (n * 2 ^ width + d) = lostDigits (2 ^ width) n + 1 := by
      rw [lostDigits, lostDigits, log2_mul_two_pow_add some digit, Nat.log2_two_pow,
        Nat.sub_add_comm bits, Nat.add_div_right _ pos]
    have left : (n * 2 ^ width + d) / 2 ^ width = n := by
      rw [Nat.mul_comm, Nat.mul_add_div (Nat.two_pow_pos _), Nat.div_eq_of_lt digit, Nat.add_zero]
    rw [kept, kept, more, Nat.pow_succ', ← Nat.div_div_eq_div_mul, left, Nat.mul_comm (2 ^ width),
      Nat.mul_assoc]

/-- The digits that are lost lie below the half of the last place that counts. -/
theorem width_mul_lostDigits_le (width n : Nat) :
    width * lostDigits (2 ^ width) n ≤ n.log2 - 53 := by
  rw [lostDigits, Nat.log2_two_pow]
  exact Nat.mul_div_le ..

/-- What is kept of a number, with the digits counted in bits. -/
theorem kept_eq (width n : Nat) :
    kept (2 ^ width) n = n / 2 ^ (width * lostDigits (2 ^ width) n)
      * 2 ^ (width * lostDigits (2 ^ width) n) := by
  rw [kept, ← Nat.pow_mul]

/-- Without its last bits a number has the same leading one. -/
theorem log2_cut {n places : Nat} (pos : 0 < n) (bound : places ≤ n.log2) :
    (n / 2 ^ places * 2 ^ places).log2 = n.log2 := by
  have upper : n / 2 ^ places * 2 ^ places ≤ n := Nat.div_mul_le_self ..
  have lower : 2 ^ n.log2 ≤ n / 2 ^ places * 2 ^ places := by
    have split : n.log2 = n.log2 - places + places := by omega
    rw [split, Nat.pow_add]
    refine Nat.mul_le_mul_right _ ?_
    rw [Nat.le_div_iff_mul_le (Nat.two_pow_pos _), ← Nat.pow_add, ← split]
    exact Nat.log2_self_le (by omega)
  rw [Nat.log2_eq_iff (by have := Nat.two_pow_pos n.log2; omega)]
  exact ⟨lower, Nat.lt_of_le_of_lt upper Nat.lt_log2_self⟩

/-- The leading bit is kept. -/
theorem log2_kept (width n : Nat) : (kept (2 ^ width) n).log2 = n.log2 := by
  rcases Nat.eq_zero_or_pos n with rfl | pos
  · rw [kept, Nat.zero_div, Nat.zero_mul]
  · have bound := width_mul_lostDigits_le width n
    rw [kept_eq, log2_cut pos (by omega)]

/-- What is kept of a long number is long. -/
theorem le_kept {n : Nat} (h : 2 ^ 53 ≤ n) : 2 ^ 53 ≤ kept (2 ^ width) n := by
  have bits : 53 ≤ n.log2 := (Nat.le_log2 (by omega)).mpr h
  rw [← log2_kept width] at bits
  refine Nat.le_trans (Nat.pow_le_pow_right two_pos bits) (Nat.log2_self_le ?_)
  rintro none
  rw [none, Nat.log2_zero] at bits
  omega

/-! ## Reading digits -/

/-- A digit behind a short number is read exactly. -/
theorem nearest_digit {a d : Nat} (few : width ≤ 4) (short : a < 2 ^ 53) (digit : d < 2 ^ width) :
    nearest false a 1 * nearest false (2 ^ width) 1 + nearest false d 1
      = nearest false (a * 2 ^ width + d) 1 := by
  have radix : 2 ^ width ≤ 2 ^ 4 := Nat.pow_le_pow_right two_pos few
  have product : a * 2 ^ width < 2 ^ 64 := by
    calc a * 2 ^ width
      _ ≤ a * 2 ^ 4 := Nat.mul_le_mul_left _ radix
      _ < 2 ^ 64 := by omega
  rw [nearest_mul (inRange_of_lt (by omega)) (inRange_of_lt (by omega)), rounded_of_lt short,
    rounded_of_lt (by omega : 2 ^ width < 2 ^ 53),
    nearest_add (inRange_of_lt product) (inRange_of_lt (by omega)), rounded_mul_two_pow,
    rounded_of_lt short, rounded_of_lt (by omega : d < 2 ^ 53)]

/-- A digit behind a number of more than 53 bits is less than half a place of the number. -/
theorem rounded_digit {a d : Nat} (long : 2 ^ 53 ≤ a) (digit : d < 2 ^ width) :
    rounded (rounded a * 2 ^ width + d) = rounded a * 2 ^ width := by
  obtain ⟨m, places, full, short, same⟩ := exists_rounded_eq long
  have whole : rounded a * 2 ^ width + d = m * 2 ^ (places + 1 + width) + d := by
    rw [same, Nat.mul_assoc, ← Nat.pow_add]
  -- The mantissa was rounded, so there is a zero behind its last place, and the digit comes after
  -- that.
  have small : 2 * d < 2 ^ (places + 1 + width) := by
    calc 2 * d
      _ < 2 * 2 ^ width := by omega
      _ ≤ 2 ^ (places + 1) * 2 ^ width :=
        Nat.mul_le_mul_right _ (Nat.le_self_pow (Nat.succ_ne_zero places) 2)
      _ = 2 ^ (places + 1 + width) := (Nat.pow_add ..).symm
  have bits : m.log2 = 52 := (Nat.log2_eq_iff (by omega)).mpr ⟨full, short⟩
  have rest : (m * 2 ^ (places + 1 + width) + d) % 2 ^ (places + 1 + width) = d := by
    rw [Nat.mul_add_mod_self_right, Nat.mod_eq_of_lt (by omega)]
  have before : (m * 2 ^ (places + 1 + width) + d) / 2 ^ (places + 1 + width) = m := by
    rw [Nat.mul_comm, Nat.mul_add_div (Nat.two_pow_pos _), Nat.div_eq_of_lt (by omega),
      Nat.add_zero]
  have quotient : roundHalfEven (m * 2 ^ (places + 1 + width) + d) (2 ^ (places + 1 + width))
      = m := by
    simp only [roundHalfEven, rest, before, if_pos small]
  rw [whole, rounded, log2_mul_two_pow_add (by omega) (by omega), bits, Nat.add_sub_cancel_left,
    quotient, same, Nat.mul_assoc, ← Nat.pow_add]

/-- A digit behind a long number is read as zero. -/
theorem nearest_digit_of_le {a d : Nat} (few : width ≤ 4) (long : 2 ^ 53 ≤ a)
    (digit : d < 2 ^ width) :
    nearest false a 1 * nearest false (2 ^ width) 1 + nearest false d 1
      = nearest false (a * 2 ^ width) 1 := by
  have radix : 2 ^ width ≤ 2 ^ 4 := Nat.pow_le_pow_right two_pos few
  have radixRange : InRange (2 ^ width) := inRange_of_lt (by omega)
  have digitRange : InRange d := inRange_of_lt (by omega)
  -- The product or the sum may be where the doubles end, and past that nothing changes any more.
  by_cases range : InRange a
  · have product : nearest false a 1 * nearest false (2 ^ width) 1
        = nearest false (a * 2 ^ width) 1 := by
      rw [nearest_mul range radixRange, rounded_of_lt (by omega : 2 ^ width < 2 ^ 53),
        ← rounded_mul_two_pow, nearest_rounded]
    rw [product]
    by_cases still : InRange (a * 2 ^ width)
    · rw [nearest_add still digitRange, rounded_of_lt (by omega : d < 2 ^ 53),
        rounded_mul_two_pow, ← nearest_rounded, rounded_digit long digit, ← rounded_mul_two_pow,
        nearest_rounded]
    · rw [nearest_add_of_not still digitRange]
  · have still : ¬ InRange (a * 2 ^ width) := fun product => range product.of_mul_two_pow
    rw [nearest_mul_of_not range radixRange (Nat.two_pow_pos _),
      nearest_add_of_not range digitRange]
    exact nearest_eq_of_not range still

/-- Reading one digit more. -/
theorem nearest_kept (pos : 0 < width) (few : width ≤ 4) {n d : Nat} (digit : d < 2 ^ width) :
    nearest false (kept (2 ^ width) n) 1 * nearest false (2 ^ width) 1 + nearest false d 1
      = nearest false (kept (2 ^ width) (n * 2 ^ width + d)) 1 := by
  rw [kept_concat pos digit]
  split_ifs with short
  · rw [kept_of_lt _ short, nearest_digit few short digit]
  · rw [nearest_digit_of_le few (le_kept (by omega)) digit]

/-- The digits of every radix up to sixteen, and these radices themselves, are doubles. -/
theorem ofNat_eq_nearest : ∀ n < 17, Float.ofNat n = nearest false n 1 := by decide +kernel

/-- Reading on from a number whose digits have been read. -/
theorem accumulate_eq (pos : 0 < width) (few : width ≤ 4) {ds : List Char} {vs : List Nat}
    (digits : ds.map (digitValue? (2 ^ width)) = vs.map some) (n : Nat) :
    accumulate (2 ^ width) (nearest false (kept (2 ^ width) n) 1) ds
      = some (nearest false
          (kept (2 ^ width) (vs.foldl (fun n d => n * 2 ^ width + d) n)) 1) := by
  have radix : 2 ^ width ≤ 2 ^ 4 := Nat.pow_le_pow_right two_pos few
  -- The induction is on the digits, read from the left.
  induction ds generalizing vs n with
  | nil =>
    obtain rfl : vs = [] := by simpa using digits.symm
    rfl
  | cons c ds ih =>
    cases vs with
    | nil => cases digits
    | cons d vs =>
      obtain ⟨value, digits⟩ := List.cons.inj digits
      have small : d < 2 ^ width := ((digitValue?_eq_some_iff (by omega)).mp value).1
      rw [accumulate, value]
      show accumulate _ (_ * Float.ofNat (2 ^ width) + Float.ofNat d) ds = _
      rw [ofNat_eq_nearest _ (by omega), ofNat_eq_nearest d (by omega),
        nearest_kept pos few small, ih digits, List.foldl_cons]

/-! ## What is lost -/

/-- Bits that are lost make a difference only behind a number that lies halfway. -/
theorem lead_eq_lead_cut {n places : Nat} (long : 2 ^ 53 ≤ n) (bound : places ≤ n.log2 - 53)
    (lost : n / 2 ^ places * 2 ^ places ≠ n) :
    lead n = lead (n / 2 ^ places * 2 ^ places)
      + if TiesDown (n / 2 ^ places * 2 ^ places) then 1 else 0 := by
  have bits : 53 ≤ n.log2 := (Nat.le_log2 (by omega)).mpr long
  have unitPos := Nat.two_pow_pos places
  have same : (2 ^ places * (n / 2 ^ places)).log2 = n.log2 := by
    rw [Nat.mul_comm, log2_cut (by omega) (by omega)]
  rw [Nat.mul_comm] at lost ⊢
  -- The place that counts is even in units of the lost bits.
  have den : 2 ^ (n.log2 - 52) = 2 ^ places * (2 * 2 ^ (n.log2 - 53 - places)) := by
    rw [← Nat.pow_succ', ← Nat.pow_add]
    congr 1
    omega
  have ties : TiesDown (2 ^ places * (n / 2 ^ places)) ↔
      n / 2 ^ places % (2 * 2 ^ (n.log2 - 53 - places)) = 2 ^ (n.log2 - 53 - places) ∧
        n / 2 ^ places / (2 * 2 ^ (n.log2 - 53 - places)) % 2 = 0 := by
    rw [TiesDown, same, den, Nat.mul_mod_mul_left, Nat.mul_div_mul_left _ _ unitPos,
      Nat.mul_left_comm 2, Nat.mul_right_inj unitPos.ne', Nat.mul_right_inj two_ne_zero]
  have split := Nat.div_add_mod n (2 ^ places)
  have cut := roundHalfEven_add (by omega : 0 < n % 2 ^ places) (Nat.mod_lt n unitPos)
    (n / 2 ^ places) (2 ^ (n.log2 - 53 - places))
  rw [split] at cut
  rw [if_congr ties rfl rfl, lead_of_le (by omega : 52 ≤ n.log2), lead_of_le (by omega), same,
    den, cut]

/-- The double of what is kept is the double of the number but for one case: digits are lost,
without them the number lies halfway, and it is not too large for a double. -/
theorem nearest_kept_eq_iff (width n : Nat) :
    nearest false (kept (2 ^ width) n) 1 = nearest false n 1 ↔
      ¬ (kept (2 ^ width) n ≠ n ∧ n < 2 ^ 1024 ∧ TiesDown (kept (2 ^ width) n)) := by
  by_cases whole : kept (2 ^ width) n = n
  · exact iff_of_true (congrArg (nearest false · 1) whole)
      (not_and_of_not_left _ (not_not_intro whole))
  have long : 2 ^ 53 ≤ n := by
    by_contra short
    exact whole (kept_of_lt _ (by omega))
  have keptLong : 2 ^ 53 ≤ kept (2 ^ width) n := le_kept long
  have bits : 53 ≤ n.log2 := (Nat.le_log2 (by omega)).mpr long
  have nonzero : n ≠ 0 := by omega
  have size (k : Nat) : n < 2 ^ k ↔ n.log2 < k := (Nat.log2_lt nonzero).symm
  have leads : lead n = lead (kept (2 ^ width) n)
      + if TiesDown (kept (2 ^ width) n) then 1 else 0 := by
    have bound := width_mul_lostDigits_le width n
    rw [kept_eq] at whole ⊢
    exact lead_eq_lead_cut long bound whole
  have unit : scaleUnit = 2 ^ 52 := by decide
  have same := log2_kept width n
  have bounds := lead_bounds (by omega : 0 < n)
  have keptBounds := lead_bounds (by omega : 0 < kept (2 ^ width) n)
  rw [nearest_eq_iff, nearestBits_nat (by omega), nearestBits_nat (by omega), same, infinityBits,
    unit, size]
  -- Only a number that ties down has leading bits that are one less without the lost digits.
  by_cases ties : TiesDown (kept (2 ^ width) n)
  · have even := lead_even_of_tiesDown (by omega) ties
    rw [if_pos ties] at leads
    simp only [whole, ties, ne_eq, not_false_eq_true, true_and, and_true]
    omega
  · rw [if_neg ties, Nat.add_zero] at leads
    rw [leads]
    simp only [ties, and_false, not_false_eq_true]

/-! ## Two spellings of a number -/

/-- Each radix is a power of two, so a digit is one to four bits. -/
theorem exists_width {mark : Char} {base : Nat} (marked : (mark, base) ∈ radixMarks) :
    ∃ width, base = 2 ^ width ∧ 0 < width ∧ width ≤ 4 := by
  have widths : ∀ known ∈ radixMarks, ∃ width ≤ 4, 0 < width ∧ known.2 = 2 ^ width := by decide
  obtain ⟨width, few, pos, same⟩ := widths _ marked
  exact ⟨width, same, pos, few⟩

/-- The number of a list of digits, taken from the left. -/
theorem foldl_eq_ofDigits (base : Nat) (vs : List Nat) :
    vs.foldl (fun n d => n * base + d) 0 = Nat.ofDigits base vs.reverse := by
  rw [Nat.ofDigits_eq_foldr, List.foldr_reverse]
  refine congrArg (fun f => vs.foldl f 0) ?_
  funext n d
  rw [Nat.mul_comm, Nat.add_comm]
  rfl

/-- Digits behind the mark of their radix. -/
theorem parseNumber_radix {mark : Char} {base : Nat} (marked : (mark, base) ∈ radixMarks)
    {ds : List Char} {vs : List Nat} (some : ds ≠ [])
    (digits : ds.map (digitValue? base) = vs.map Option.some) :
    parseNumber (String.ofList ('0' :: mark :: ds))
      = Option.some (nearest false (kept base (Nat.ofDigits base vs.reverse)) 1) := by
  have read : IsNumber ('0' :: mark :: ds) := by
    refine .radix marked some fun d among => ?_
    have value := List.mem_map_of_mem (f := digitValue? base) among
    rw [digits, List.mem_map] at value
    obtain ⟨v, -, value⟩ := value
    rw [← isSome_digitValue?_iff (le_of_mem_radixMarks marked), ← value]
    rfl
  obtain ⟨width, rfl, pos, few⟩ := exists_width marked
  have empty : ds.isEmpty = false := by simpa using some
  have start : (0.0 : Float) = nearest false (kept (2 ^ width) 0) 1 := by
    rw [kept_of_lt _ (by decide)]
    exact ofNat_eq_nearest 0 (by decide)
  rw [parseNumber, String.toList_ofList, Text.strip_of_no_blank read.visible, token?_radix marked,
    radixDigits?, empty, if_neg Bool.false_ne_true, start, accumulate_eq pos few digits,
    foldl_eq_ofDigits]

/-- A decimal with no exponent is a natural number. -/
theorem nearestDecimal_zero (n : Nat) : nearestDecimal false n 0 = nearest false n 1 := by
  unfold nearestDecimal
  by_cases zero : n = 0
  · rw [if_pos zero, zero, nearest, nearestBits_zero]
  · have low : ¬ (0 : Int) < -400 - (n.log2 : Int) := by omega
    rw [if_neg zero, if_neg (by decide), if_neg low, if_pos (Int.le_refl 0)]
    show nearest false (n * 1) 1 = _
    rw [Nat.mul_one]

/-- A decimal numeral. -/
theorem parseNumber_repr (n : Nat) : parseNumber n.repr = some (nearest false n 1) := by
  have digits : ∀ d ∈ Nat.toDigits 10 n, d.isDigit = true :=
    fun d among => Nat.isDigit_of_mem_toDigits (by decide) (by decide) among
  have some : Nat.toDigits 10 n ≠ [] := Nat.toDigits_ne_nil
  have visible := (IsNumber.decimal .none (.whole ⟨some, digits⟩) .none).visible
  rw [List.nil_append, List.append_nil] at visible
  have value : natOfDigits (Nat.toDigits 10 n) = n := Nat.ofDigitChars_ten_toDigits
  rw [parseNumber, Nat.toList_repr, Text.strip_of_no_blank visible]
  generalize Nat.toDigits 10 n = ds at *
  obtain ⟨d, rest, rfl⟩ := List.exists_cons_of_ne_nil some
  have first : d.isDigit = true := digits d List.mem_cons_self
  have plain : radix? (d :: rest) = none := by
    rw [Option.eq_none_iff_forall_not_mem]
    rintro ⟨base, ds⟩ found
    obtain ⟨mark, marked, same⟩ := radix?_eq_some_iff.mp found
    -- The mark of a radix is no digit.
    have digit := digits mark (by rw [same]; simp)
    have none := radixOf?_of_isDecimalChar (.inl digit)
    rw [radixOf?_eq_some_iff.mpr marked] at none
    cases none
  have unsigned : sign (d :: rest) = (false, d :: rest) := by
    rw [sign]
    · rintro _ ⟨rfl, -⟩
      exact absurd first (by decide)
    · rintro _ ⟨rfl, -⟩
      exact absurd first (by decide)
  have read : unsigned? (d :: rest) = Option.some (n, 0) := by
    have whole := @unsigned?_whole (d :: rest) [] digits (by simp)
    rw [List.append_nil] at whole
    rw [whole, value]
    rfl
  rw [token?_of_digit first, plain]
  show decimal? (d :: rest) = _
  rw [decimal?, unsigned]
  simp only [read, Option.map_some, nearestDecimal_zero]

end Literal

/-- A decimal numeral is read as the double nearest to its number, and a radix literal as the double
nearest to what is kept of its number. The two are the same, unless digits are lost, the number
without them lies halfway between two doubles of which the lower is even, and it is not too large
for a double. -/
theorem radix_spelling_agrees_iff {mark : Char} {base : Nat}
    (marked : (mark, base) ∈ Literal.radixMarks) {ds : List Char} {vs : List Nat} (some : ds ≠ [])
    (digits : ds.map (Literal.digitValue? base) = vs.map Option.some) :
    let n := Nat.ofDigits base vs.reverse
    let literal := String.ofList ('0' :: mark :: ds)
    parseNumber n.repr = Option.some (nearest false n 1) ∧ IsNearest n (nearest false n 1) ∧
      parseNumber literal = Option.some (nearest false (Literal.kept base n) 1) ∧
      (parseNumber literal = parseNumber n.repr ↔
        ¬ (Literal.kept base n ≠ n ∧ n < 2 ^ 1024 ∧ Literal.TiesDown (Literal.kept base n))) := by
  intro n literal
  have read : parseNumber literal = Option.some (nearest false (Literal.kept base n) 1) :=
    Literal.parseNumber_radix marked some digits
  have numeral : parseNumber n.repr = Option.some (nearest false n 1) := Literal.parseNumber_repr n
  refine ⟨numeral, isNearest_nearest n, read, ?_⟩
  obtain ⟨width, rfl, -, -⟩ := Literal.exists_width marked
  rw [read, numeral, Option.some_inj]
  exact Literal.nearest_kept_eq_iff width n

/-- A digit that is lost behind a number with an odd double below it makes no difference. -/
theorem radix_spelling_agrees_of_odd :
    ('x', 16) ∈ Literal.radixMarks ∧ Literal.kept 16 0x1000000000000181 ≠ 0x1000000000000181 ∧
      parseNumber "0x1000000000000181" = parseNumber (Nat.repr 0x1000000000000181) := by
  have marked : ('x', 16) ∈ Literal.radixMarks := by decide
  have digits : "1000000000000181".toList.map (Literal.digitValue? 16)
      = [1, 0, 0, 0, 0, 0, 0, 0, 0, 0, 0, 0, 0, 1, 8, 1].map Option.some := by decide
  obtain ⟨-, -, -, agree⟩ := radix_spelling_agrees_iff marked (by decide) digits
  have odd : ¬ Literal.TiesDown (Literal.kept 16 0x1000000000000181) := by decide
  exact ⟨marked, by decide, agree.mpr fun differs => odd differs.2.2⟩

/-- A literal with 61 bits whose last digit is lost. -/
theorem radix_spelling_differs :
    parseNumber "0x1000000000000081" = some (Float.ofBits 0x43B0000000000000) ∧
      parseNumber "1152921504606847105" = some (Float.ofBits 0x43B0000000000001) ∧
      parseNumber "0x1000000000000081" ≠ parseNumber "1152921504606847105" := by
  decide +kernel

end Linework
