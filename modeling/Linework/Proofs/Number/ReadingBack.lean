import Linework.Proofs.Number.Grammar
import Linework.Proofs.Number.Shortest

/-!
# `Linework.Proofs.Number.ReadingBack`: numbers that are printed and read again

The digits of a double may be laid out with zeros, with a point among them or with an exponent. The
reader of literals sees the same number in all of it (`Literal.unsigned?_layout`). The digits are
those of a decimal that reads as the double, so the double comes back, whichever format it was
printed in (`Literal.decimal?_magnitude`).

A hint differs from that only in the words for what is not finite and in zero, which it prints
without a sign. `readBack` says what that leaves of a double (`parseNumber_formatNumber`).
-/

set_option autoImplicit false

namespace Linework

open NumberFormat Binary64

/-- The sign in front of a number. -/
def signText (negative : Bool) : List Char := if negative then ['-'] else []

namespace Literal

/-! ## Texts of decimals -/

/-- Digits are read from the left, the later ones behind the number of the earlier ones. -/
theorem natOfDigits_append (ds ds' : List Char) :
    natOfDigits (ds ++ ds') = Nat.ofDigitChars 10 ds' (natOfDigits ds) :=
  Nat.ofDigitChars_append 0

/-- The digits of a number are read as the number. -/
theorem natOfDigits_digits (n : Nat) : natOfDigits (digits n) = n :=
  Nat.ofDigitChars_ten_toDigits

/-- Zeros in front do not count. -/
theorem natOfDigits_zeros (places : Nat) (ds : List Char) :
    natOfDigits (List.replicate places '0' ++ ds) = natOfDigits ds := by
  rw [natOfDigits_append, natOfDigits, Nat.ofDigitChars_replicate_zero, Nat.mul_zero]
  rfl

/-- The digits of a number are digits, and there is one at least. -/
theorem isDigits_digits (n : Nat) : IsDigits (digits n) :=
  ⟨Nat.toDigits_ne_nil, fun _ among => Nat.isDigit_of_mem_toDigits (by decide) (by decide) among⟩

/-- Zeros are digits. -/
theorem isDigit_zeros (places : Nat) : ∀ d ∈ List.replicate places '0', d.isDigit = true := by
  intro d among
  rw [List.eq_of_mem_replicate among]
  rfl

/-- Digits without a point, and what follows them. -/
theorem unsigned?_digits {whole : List Char} (digits : IsDigits whole) (rest : List Char)
    (stop : ∀ c ∈ rest.head?, c.isDigit = false ∧ c ≠ '.') :
    unsigned? (whole ++ rest) = (exponent? rest).map fun e => (natOfDigits whole, e) := by
  rw [unsigned?_whole digits.2 stop, List.isEmpty_eq_false_iff.mpr digits.1,
    if_neg Bool.false_ne_true]

/-- Digits before a point, digits after it, and what follows them. -/
theorem unsigned?_point_digits {whole fraction : List Char} (digits : IsDigits whole)
    (more : ∀ d ∈ fraction, d.isDigit = true) (rest : List Char)
    (stop : ∀ c ∈ rest.head?, c.isDigit = false) :
    unsigned? (whole ++ '.' :: (fraction ++ rest))
      = (exponent? rest).map fun e =>
          (natOfDigits (whole ++ fraction), e - (fraction.length : Int)) := by
  have span := span_digits more stop
  have some : (whole.isEmpty && fraction.isEmpty) = false := by
    rw [List.isEmpty_eq_false_iff.mpr digits.1]
    rfl
  rw [unsigned?_point digits.2, span.1, span.2, some, if_neg Bool.false_ne_true]

/-- The exponent of a number as it is written. -/
theorem exponent?_written (n : Int) :
    exponent? ('e' :: (if n < 0 then '-' else '+') :: digits n.natAbs) = some n := by
  have written := isDigits_digits n.natAbs
  have some : ((digits n.natAbs).isEmpty || !(digits n.natAbs).all Char.isDigit) = false := by
    rw [List.isEmpty_eq_false_iff.mpr written.1, List.all_eq_true.mpr written.2]
    rfl
  split_ifs with negative
  · simp only [exponent?, sign, some, natOfDigits_digits, true_or, if_true, Bool.false_eq_true,
      if_false]
    congr 1
    omega
  · simp only [exponent?, sign, some, natOfDigits_digits, true_or, if_true, Bool.false_eq_true,
      if_false]
    congr 1
    omega

section Layout

variable {ds : List Char} (written : IsDigits ds)

include written

/-- Digits and zeros, without a point or with one and a zero behind it. -/
theorem unsigned?_padded (wholeFraction : Bool) (places : Nat) :
    ∃ c e, unsigned? (ds ++ List.replicate places '0'
        ++ (if wholeFraction then ['.', '0'] else [])) = some (c, e) ∧
      decimalBits c e = decimalBits (natOfDigits ds) places := by
  have all : IsDigits (ds ++ List.replicate places '0') :=
    ⟨List.append_ne_nil_of_left_ne_nil written.1 _, fun d among =>
      (List.mem_append.mp among).elim (written.2 d) (isDigit_zeros _ d)⟩
  have zeros (k : Nat) :
      natOfDigits (ds ++ List.replicate k '0') = 10 ^ k * natOfDigits ds := by
    rw [natOfDigits_append, Nat.ofDigitChars_replicate_zero]
  -- With a point and a zero there is one digit more, and the exponent takes it back.
  cases wholeFraction with
  | false =>
    have read := unsigned?_digits all [] (by simp)
    rw [zeros] at read
    refine ⟨_, _, read, decimalBits_eq ?_⟩
    show ((10 ^ places * natOfDigits ds : Nat) : ℚ) * 10 ^ (0 : Int)
      = (natOfDigits ds : ℚ) * 10 ^ (places : Int)
    rw [zpow_zero, mul_one, zpow_natCast, Nat.cast_mul, Nat.cast_pow, Nat.cast_ofNat, mul_comm]
  | true =>
    have read := unsigned?_point_digits all (isDigit_zeros 1) [] (by simp)
    have more : ds ++ List.replicate places '0' ++ List.replicate 1 '0'
        = ds ++ List.replicate (places + 1) '0' := by
      rw [List.append_assoc, ← List.replicate_add]
    rw [more, zeros] at read
    refine ⟨_, _, read, decimalBits_eq ?_⟩
    show ((10 ^ (places + 1) * natOfDigits ds : Nat) : ℚ) * 10 ^ (-1 : Int)
      = (natOfDigits ds : ℚ) * 10 ^ (places : Int)
    push_cast
    rw [zpow_neg_one, zpow_natCast, pow_succ]
    field_simp

/-- Digits with a point among them or behind them. -/
theorem unsigned?_pointed {places : Nat} (some : 0 < places) (few : places ≤ ds.length) :
    unsigned? (ds.take places ++ '.' :: ds.drop places)
      = Option.some (natOfDigits ds, (places : Int) - ds.length) := by
  have front : IsDigits (ds.take places) := by
    refine ⟨?_, fun d among => written.2 d (List.mem_of_mem_take among)⟩
    rw [ne_eq, List.take_eq_nil_iff, not_or]
    exact ⟨Nat.ne_of_gt some, written.1⟩
  have more : ∀ d ∈ ds.drop places, d.isDigit = true :=
    fun d among => written.2 d (List.mem_of_mem_drop among)
  have read := unsigned?_point_digits front more [] (by simp)
  rw [List.append_nil, List.take_append_drop, List.length_drop] at read
  rw [read]
  show Option.some (natOfDigits ds, (0 : Int) - ((ds.length - places : Nat) : Int)) = _
  congr 2
  omega

/-- Digits with a point before them, and zeros between. -/
theorem unsigned?_leading (places : Nat) :
    unsigned? ('0' :: '.' :: (List.replicate places '0' ++ ds))
      = some (natOfDigits ds, -(places : Int) - ds.length) := by
  have zero : IsDigits (List.replicate 1 '0') := ⟨by simp, isDigit_zeros 1⟩
  have read := unsigned?_point_digits zero
    (fun d among => (List.mem_append.mp among).elim (isDigit_zeros places d) (written.2 d))
    [] (by simp)
  rw [List.append_nil, natOfDigits_zeros, natOfDigits_zeros, List.length_append,
    List.length_replicate] at read
  refine read.trans ?_
  show some (natOfDigits ds, (0 : Int) - ((places + ds.length : Nat) : Int)) = _
  congr 2
  omega

/-- Digits with an exponent. -/
theorem unsigned?_scientific (n : Int) :
    unsigned? (scientific ds n) = some (natOfDigits ds, n - ds.length) := by
  obtain ⟨d, more, rfl⟩ := List.exists_cons_of_ne_nil written.1
  have exponent := exponent?_written (n - 1)
  have first : IsDigits [d] := ⟨by simp, fun c among => written.2 c (by simp_all)⟩
  simp only [scientific]
  generalize (if n - 1 < 0 then '-' else '+') = mark at exponent ⊢
  -- A single digit has no point behind it.
  cases more with
  | nil =>
    show unsigned? ([d] ++ 'e' :: mark :: digits (n - 1).natAbs) = _
    rw [unsigned?_digits first _ (by simp), exponent]
    rfl
  | cons d' more =>
    have rest : ∀ c ∈ d' :: more, c.isDigit = true :=
      fun c among => written.2 c (List.mem_cons_of_mem d among)
    show unsigned? ([d] ++ '.' :: ((d' :: more) ++ 'e' :: mark :: digits (n - 1).natAbs)) = _
    rw [unsigned?_point_digits first rest _ (by simp), exponent]
    show some (natOfDigits (d :: d' :: more), n - 1 - ((d' :: more).length : Int)) = _
    rw [List.length_cons (a := d)]
    congr 2
    omega

/-- Digits without one: the place of the point decides which of these it is. -/
theorem unsigned?_plain (wholeFraction : Bool) (e : Int) :
    ∃ c e', unsigned? (plain wholeFraction ds (e + ds.length)) = some (c, e') ∧
      decimalBits c e' = decimalBits (natOfDigits ds) e := by
  have some := List.length_pos_iff.mpr written.1
  rw [plain]
  -- The point stands before the digits, behind them or among them.
  by_cases leading : (e + ds.length : Int) ≤ 0
  · rw [if_pos leading]
    have place : -((-(e + ds.length : Int)).toNat : Int) - ds.length = e := by omega
    rw [unsigned?_leading written, place]
    exact ⟨_, _, rfl, rfl⟩
  rw [if_neg leading]
  by_cases whole : ds.length ≤ (e + ds.length : Int).toNat
  · rw [if_pos whole]
    obtain ⟨c, e', read, same⟩ := unsigned?_padded written wholeFraction
      ((e + ds.length : Int).toNat - ds.length)
    have places : (((e + ds.length : Int).toNat - ds.length : Nat) : Int) = e := by omega
    rw [places] at same
    exact ⟨c, e', read, same⟩
  · have place : ((e + ds.length : Int).toNat : Int) - ds.length = e := by omega
    rw [if_neg whole, unsigned?_pointed written (by omega) (by omega), place]
    exact ⟨_, _, rfl, rfl⟩

/-- Digits are read as their number and its exponent, however they are laid out. -/
theorem unsigned?_layout (f : NumberFormat) (size : Float) (e : Int) :
    ∃ c e', unsigned? (f.layout size ds (e + ds.length)) = some (c, e') ∧
      decimalBits c e' = decimalBits (natOfDigits ds) e := by
  rw [layout]
  split_ifs
  · exact unsigned?_plain written _ e
  · refine ⟨_, _, unsigned?_scientific written _, ?_⟩
    rw [Int.add_sub_cancel]

end Layout

/-- What is put in front of a number is a sign. -/
theorem isSign_signText (negative : Bool) : IsSign (signText negative) := by
  cases negative with
  | false => exact .none
  | true => exact .minus

/-- And it is read as one. -/
theorem sign_signText (negative : Bool) (cs : List Char)
    (plain : ∀ c ∈ cs.head?, c ≠ '-' ∧ c ≠ '+') :
    sign (signText negative ++ cs) = (negative, cs) := by
  cases negative with
  | true => rfl
  | false => exact sign_of_head plain

/-- What is printed of a double is a decimal number, and is read back as the double. -/
theorem decimal?_magnitude (f : NumberFormat) (size : Float) (negative : Bool) {m s : Nat}
    (pos : 0 < m) (canonical : Canonical m s) :
    (∀ c ∈ signText negative ++ f.magnitude size m s, IsDecimalChar c) ∧
      decimal? (signText negative ++ f.magnitude size m s)
        = some (ofMagnitudeBits negative (s * scaleUnit + m)) := by
  obtain ⟨c, e, read, same⟩ := unsigned?_layout (isDigits_digits (shortest f.tie m s).coefficient) f
    size (shortest f.tie m s).exponent
  -- The digits are those of a decimal that reads as the double.
  rw [natOfDigits_digits, readsAs_shortest f.tie pos canonical] at same
  have read : unsigned? (f.magnitude size m s) = some (c, e) := read
  have some : (unsigned? (f.magnitude size m s)).isSome = true := by rw [read]; rfl
  obtain ⟨d, e', split, magnitude, exponent⟩ := (isSome_unsigned?_iff _).mp some
  constructor
  · rw [split]
    exact isDecimalChar_of_mem (isSign_signText negative) magnitude exponent
  · have signed := sign_signText negative (f.magnitude size m s)
      (by rw [split]; exact magnitude.head e')
    simp only [decimal?, signed, read, Option.map_some, nearestDecimal_eq, same]

end Literal

/-- There is nothing to trim off a text without blanks. -/
theorem parseNumber_ofList {cs : List Char} (visible : ∀ c ∈ cs, Text.isBlank c = false) :
    parseNumber (String.ofList cs) = Literal.token? cs := by
  rw [parseNumber, String.toList_ofList, Text.strip_of_no_blank visible]

/-- A finite number other than zero is printed as its magnitude, with its sign. -/
theorem formatNumber_finite {x : Float} {negative : Bool} {m s : Nat}
    (number : parts x = .finite negative m s) (pos : 0 < m) :
    formatNumber x = String.ofList (signText negative ++ hintFormat.magnitude x.abs m s) := by
  rw [formatNumber, number]
  simp only [if_neg (Nat.ne_of_gt pos)]
  cases negative <;> rfl

/-- Numbers other than zero are read back as they are. -/
theorem parseNumber_formatNumber_finite {x : Float} {negative : Bool} {m s : Nat}
    (number : parts x = .finite negative m s) (pos : 0 < m) :
    parseNumber (formatNumber x) = some x := by
  obtain ⟨chars, read⟩ := Literal.decimal?_magnitude hintFormat x.abs negative pos
    (canonical_of_parts number)
  -- The empty text would be read as zero.
  have nonempty : signText negative ++ hintFormat.magnitude x.abs m s ≠ [] := by
    intro empty
    have none : Literal.decimal? [] = none := rfl
    rw [empty, none] at read
    cases read
  have visible : ∀ c ∈ signText negative ++ hintFormat.magnitude x.abs m s,
      Text.isBlank c = false :=
    fun c among => Text.isBlank_of_visible (chars c among).ascii.1 (chars c among).ascii.2
  rw [formatNumber_finite number pos, parseNumber_ofList visible,
    Literal.token?_of_isDecimalChar nonempty chars, read, ← eq_ofMagnitudeBits number]

section Words

variable {x : Float}

/-- What is no number is printed as a word. -/
theorem formatNumber_nan (number : parts x = .nan) : formatNumber x = "NaN" := by
  rw [formatNumber, number]

/-- So is what is infinite, with its sign. -/
theorem formatNumber_infinite {negative : Bool} (number : parts x = .infinite negative) :
    formatNumber x = if negative then "-Infinity" else "Infinity" := by
  rw [formatNumber, number]

/-- Zero is printed without its sign. -/
theorem formatNumber_zero {negative : Bool} {s : Nat} (number : parts x = .finite negative 0 s) :
    formatNumber x = "0" := by
  rw [formatNumber, number]
  exact if_pos rfl

end Words

/-- Numbers are printed in visible characters of ASCII. -/
theorem formatNumber_ascii (x : Float) :
    ∀ c ∈ (formatNumber x).toList, 0x21 ≤ c.toNat ∧ c.toNat ≤ 0x7E := by
  have word {s : String} (ascii : s.toList.all (fun c => 0x21 ≤ c.toNat && c.toNat ≤ 0x7E) = true) :
      ∀ c ∈ s.toList, 0x21 ≤ c.toNat ∧ c.toNat ≤ 0x7E := by
    intro c among
    simpa using List.all_eq_true.mp ascii c among
  -- What is not finite is a word, and so is zero.
  cases number : parts x with
  | nan => exact formatNumber_nan number ▸ word (by decide)
  | infinite negative =>
    rw [formatNumber_infinite number]
    cases negative
    · exact word (s := "Infinity") (by decide)
    · exact word (s := "-Infinity") (by decide)
  | finite negative m s =>
    rcases Nat.eq_zero_or_pos m with rfl | pos
    · exact formatNumber_zero number ▸ word (by decide)
    · intro c among
      rw [formatNumber_finite number pos, String.toList_ofList] at among
      have chars := (Literal.decimal?_magnitude hintFormat x.abs negative pos
        (canonical_of_parts number)).1
      exact (chars c among).ascii

/-- The double that a number is read back as: the number itself, but zero without its sign, and none
for what is no number. -/
def readBack (x : Float) : Option Float :=
  if x.isNaN then none else if x = negativeZero then some 0.0 else some x

/-- The parts of zero. -/
theorem parts_zero : parts 0.0 = .finite false 0 0 := by decide +kernel

/-- The parts of zero with a minus sign. -/
theorem parts_negativeZero : parts negativeZero = .finite true 0 0 := by decide +kernel

/-- Other numbers than that are read back as they are. -/
theorem readBack_of_ne {x : Float} (number : parts x ≠ .nan) (other : x ≠ negativeZero) :
    readBack x = some x := by
  rw [readBack, if_neg (mt (isNaN_iff x).mp number), if_neg other]

/-- What is printed of a number is read back as the number. -/
theorem parseNumber_formatNumber (x : Float) : parseNumber (formatNumber x) = readBack x := by
  cases number : parts x with
  | nan =>
    rw [formatNumber_nan number, readBack, if_pos ((isNaN_iff x).mpr number)]
    rfl
  | infinite negative =>
    have other : x ≠ negativeZero := by
      rintro rfl
      rw [parts_negativeZero] at number
      cases number
    rw [readBack_of_ne (by simp [number]) other, formatNumber_infinite number,
      eq_ofMagnitudeBits_infinity number]
    cases negative <;> rfl
  | finite negative m s =>
    rcases Nat.eq_zero_or_pos m with rfl | pos
    · obtain rfl := scale_eq_zero number
      have zero : parseNumber "0" = some 0.0 := by decide +kernel
      rw [formatNumber_zero number, zero, readBack, if_neg (mt (isNaN_iff x).mp (by simp [number]))]
      -- Only zero with a minus sign loses it.
      split_ifs with signed
      · rfl
      · cases negative with
        | false => rw [parts_inj (number.trans parts_zero.symm)]
        | true => exact absurd (parts_inj (number.trans parts_negativeZero.symm)) signed
    · rw [parseNumber_formatNumber_finite number pos, readBack_of_ne (by simp [number])]
      rintro rfl
      rw [parts_negativeZero] at number
      cases number
      exact Nat.lt_irrefl 0 pos

/-- What is printed of a number is what is printed of the double that it is read back as. -/
theorem formatNumber_eq_elim (x : Float) :
    formatNumber x = (readBack x).elim "NaN" formatNumber := by
  rw [readBack]
  split_ifs with nan signed
  · exact formatNumber_nan ((isNaN_iff x).mp nan)
  · rw [signed, formatNumber_zero parts_negativeZero]
    exact (formatNumber_zero parts_zero).symm
  · rfl

end Linework
