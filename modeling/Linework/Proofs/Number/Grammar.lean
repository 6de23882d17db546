import Linework.Number.Literal
import Linework.Proofs.Text.Cutting

/-!
# `Linework.Proofs.Number.Grammar`: which tokens are numbers

`IsNumber` is the grammar of number tokens, rule by rule and without a word about how one is read:
nothing at all, `Infinity` with a sign, the digits of a radix behind its mark, and a decimal with a
sign, a point among its digits and an exponent. Reading a token gives a number exactly if the token
follows one of the rules (`isSome_token?_iff`), and blanks around it do not count
(`parseNumber_accepts`).

Every reader of a part looks as far as the part can go. What can follow a part never could have
been more of it: no digit follows digits, and no sign, digit or point begins an exponent. So from
the parts of a number one gets back each as it was written. The rules do not overlap where it
matters, either: of all characters in a decimal none is the mark of a radix or begins a word.
-/

set_option autoImplicit false

namespace Linework

namespace Text

/-- What is trimmed off a text are blanks. -/
theorem exists_eq_strip (cs : List Char) :
    ∃ front back, cs = front ++ (strip cs ++ back) ∧ (∀ c ∈ front, isBlank c = true) ∧
      ∀ c ∈ back, isBlank c = true := by
  have first : cs = cs.takeWhile isBlank ++ dropBlanks cs := List.takeWhile_append_dropWhile.symm
  have last : dropBlanks cs
      = strip cs ++ ((dropBlanks cs).reverse.takeWhile isBlank).reverse := by
    rw [strip, dropTrailingBlanks, dropBlanks.eq_1 (dropBlanks cs).reverse, ← List.reverse_append,
      List.takeWhile_append_dropWhile, List.reverse_reverse]
  refine ⟨_, _, first.trans (congrArg _ last), ?_, ?_⟩
  · intro c among
    exact List.mem_takeWhile_imp among
  · intro c among
    exact List.mem_takeWhile_imp (List.mem_reverse.mp among)

/-- The visible characters of ASCII are no blanks. -/
theorem isBlank_of_visible {c : Char} (low : 0x21 ≤ c.toNat) (high : c.toNat ≤ 0x7E) :
    isBlank c = false := by
  simp only [isBlank, blankRanges, List.any_cons, List.any_nil, Bool.or_false,
    Bool.or_eq_false_iff, Bool.and_eq_false_iff, decide_eq_false_iff_not]
  omega

/-- A character of a word without blanks is none. -/
theorem isBlank_of_mem {word : List Char} (visible : word.all (!isBlank ·) = true) {c : Char}
    (among : c ∈ word) : isBlank c = false := by
  simpa using List.all_eq_true.mp visible c among

end Text

namespace Literal

/-! ## The grammar -/

/-- A sign, which may be left out. -/
inductive IsSign : List Char → Prop
  | none : IsSign []
  | plus : IsSign ['+']
  | minus : IsSign ['-']

/-- Decimal digits, at least one of them. -/
def IsDigits (ds : List Char) : Prop := ds ≠ [] ∧ ∀ d ∈ ds, d.isDigit = true

/-- Digits with or without a point. There may be none before the point or none after it, but not
neither. -/
inductive IsMagnitude : List Char → Prop
  | whole {ds : List Char} (digits : IsDigits ds) : IsMagnitude ds
  | point {ds fraction : List Char} (digits : IsDigits ds)
      (more : ∀ d ∈ fraction, d.isDigit = true) : IsMagnitude (ds ++ '.' :: fraction)
  | bare {fraction : List Char} (digits : IsDigits fraction) : IsMagnitude ('.' :: fraction)

/-- An exponent, which may be left out. -/
inductive IsExponent : List Char → Prop
  | none : IsExponent []
  | power {mark : Char} {s ds : List Char} (marked : mark ∈ ['e', 'E']) (signed : IsSign s)
      (digits : IsDigits ds) : IsExponent (mark :: (s ++ ds))

/-- The characters that name a radix after a zero. -/
def radixMarks : List (Char × Nat) :=
  [('x', 16), ('X', 16), ('o', 8), ('O', 8), ('b', 2), ('B', 2)]

/-- A digit of a radix up to sixteen, a letter in either case. -/
def IsDigitOf (radix : Nat) (d : Char) : Prop :=
  d ∈ "0123456789abcdef".toList.take radix ∨ d ∈ "0123456789ABCDEF".toList.take radix

/-- The tokens that are numbers. -/
inductive IsNumber : List Char → Prop
  | empty : IsNumber []
  | infinity {s : List Char} (signed : IsSign s) : IsNumber (s ++ "Infinity".toList)
  | radix {mark : Char} {base : Nat} {ds : List Char} (marked : (mark, base) ∈ radixMarks)
      (some : ds ≠ []) (digits : ∀ d ∈ ds, IsDigitOf base d) : IsNumber ('0' :: mark :: ds)
  | decimal {s m e : List Char} (signed : IsSign s) (magnitude : IsMagnitude m)
      (exponent : IsExponent e) : IsNumber (s ++ (m ++ e))

/-! ## Digits -/

/-- The digits by their places in ASCII. -/
theorem isDigit_iff (c : Char) : c.isDigit = true ↔ 48 ≤ c.toNat ∧ c.toNat ≤ 57 := by
  simp only [Char.isDigit, Bool.and_eq_true, decide_eq_true_eq]
  exact Iff.rfl

/-- The values of digits do not depend on the radix, only which of them it has. -/
theorem digitValue?_eq_some_iff {radix n : Nat} {c : Char} (h : radix ≤ 16) :
    digitValue? radix c = some n ↔ n < radix ∧ digitValue? 16 c = some n := by
  simp only [digitValue?, Option.filter_eq_some_iff, decide_eq_true_eq]
  constructor
  · intro ⟨value, small⟩
    exact ⟨small, value, by omega⟩
  · intro ⟨small, value, _⟩
    exact ⟨value, small⟩

/-- The digits in the order of their values. -/
theorem digitValue?_sixteen_iff {n : Nat} {c : Char} :
    digitValue? 16 c = some n ↔
      "0123456789abcdef".toList[n]? = some c ∨ "0123456789ABCDEF".toList[n]? = some c := by
  constructor
  · intro value
    have decimal : ∀ k < 10, "0123456789abcdef".toList[k]? = some (Char.ofNat (48 + k)) := by decide
    have lower : ∀ k < 6, "0123456789abcdef".toList[k + 10]? = some (Char.ofNat (97 + k)) := by
      decide
    have upper : ∀ k < 6, "0123456789ABCDEF".toList[k + 10]? = some (Char.ofNat (65 + k)) := by
      decide
    have self (start : Nat) (h : start ≤ c.toNat) : Char.ofNat (start + (c.toNat - start)) = c := by
      rw [Nat.add_sub_cancel' h, Char.ofNat_toNat]
    rw [digitValue?, Option.filter_eq_some_iff] at value
    have value := value.1
    -- The digits and the letters of either case are three stretches of ASCII, and each of them is
    -- a stretch of one of the two rows.
    split_ifs at value with digit small large
    · have range := (isDigit_iff c).mp digit
      cases value
      have place := decimal (c.toNat - 48) (by omega)
      rw [self 48 range.1] at place
      exact .inl place
    · have range : 97 ≤ c.toNat ∧ c.toNat ≤ 102 := small
      cases value
      have place := lower (c.toNat - 97) (by omega)
      rw [self 97 range.1] at place
      exact .inl place
    · have range : 65 ≤ c.toNat ∧ c.toNat ≤ 70 := large
      cases value
      have place := upper (c.toNat - 65) (by omega)
      rw [self 65 range.1] at place
      exact .inr place
  · intro place
    -- The other way, both rows are read off against the values.
    have value {digits : List Char}
        (values : digits.map (digitValue? 16) = (List.range 16).map some)
        (place : digits[n]? = some c) : digitValue? 16 c = some n := by
      have there : (digits.map (digitValue? 16))[n]? = some (digitValue? 16 c) := by
        rw [List.getElem?_map, place, Option.map_some]
      rw [values, List.getElem?_map] at there
      obtain ⟨k, found, same⟩ := Option.map_eq_some_iff.mp there
      obtain ⟨inRange, position⟩ := List.getElem?_eq_some_iff.mp found
      rw [List.getElem_range] at position
      rw [← same, position]
    rcases place with place | place
    · exact value (by decide) place
    · exact value (by decide) place

/-- A character has a value in a radix exactly if it is a digit of the radix. -/
theorem isSome_digitValue?_iff {radix : Nat} (h : radix ≤ 16) (d : Char) :
    (digitValue? radix d).isSome = true ↔ IsDigitOf radix d := by
  have place (digits : List Char) :
      d ∈ digits.take radix ↔ ∃ n < radix, digits[n]? = some d := by
    rw [List.mem_iff_getElem?]
    simp only [List.getElem?_take, Option.ite_none_right_eq_some]
  rw [Option.isSome_iff_exists, IsDigitOf, place, place]
  simp only [digitValue?_eq_some_iff h, digitValue?_sixteen_iff, and_or_left, exists_or]

/-- The marks in the table are those that are known. -/
theorem radixOf?_eq_some_iff {mark : Char} {base : Nat} :
    radixOf? mark = some base ↔ (mark, base) ∈ radixMarks := by
  constructor
  · intro known
    unfold radixOf? at known
    split at known <;> cases known <;> decide
  · intro marked
    simp only [radixMarks, List.mem_cons, List.not_mem_nil, or_false, Prod.mk.injEq] at marked
    rcases marked with ⟨rfl, rfl⟩ | ⟨rfl, rfl⟩ | ⟨rfl, rfl⟩ | ⟨rfl, rfl⟩ | ⟨rfl, rfl⟩ |
      ⟨rfl, rfl⟩ <;> rfl

/-- No radix is greater than sixteen. -/
theorem le_of_mem_radixMarks {mark : Char} {base : Nat} (h : (mark, base) ∈ radixMarks) :
    base ≤ 16 := by
  simp only [radixMarks, List.mem_cons, List.not_mem_nil, or_false, Prod.mk.injEq] at h
  omega

/-- Reading on is possible as long as there are digits. -/
theorem isSome_accumulate_iff (radix : Nat) (acc : Float) (ds : List Char) :
    (accumulate radix acc ds).isSome = true ↔ ∀ d ∈ ds, (digitValue? radix d).isSome = true := by
  -- What was read so far changes the value but not whether there is one.
  induction ds generalizing acc with
  | nil => simp [accumulate]
  | cons d ds ih =>
    rw [accumulate, List.forall_mem_cons]
    cases digitValue? radix d with
    | none => simp
    | some value => simp only [ih, Option.isSome_some, true_and]

/-- Digits of a radix can be read if there are any and each of them is one. -/
theorem isSome_radixDigits?_iff {radix : Nat} (h : radix ≤ 16) (ds : List Char) :
    (radixDigits? radix ds).isSome = true ↔ ds ≠ [] ∧ ∀ d ∈ ds, IsDigitOf radix d := by
  unfold radixDigits?
  cases ds with
  | nil => simp
  | cons d ds =>
    rw [List.isEmpty_cons, if_neg Bool.false_ne_true, isSome_accumulate_iff]
    simp only [isSome_digitValue?_iff h]
    simp

/-! ## Parts of a decimal -/

/-- What begins with no sign has none. -/
theorem sign_of_head {cs : List Char} (plain : ∀ c ∈ cs.head?, c ≠ '-' ∧ c ≠ '+') :
    sign cs = (false, cs) := by
  cases cs with
  | nil => rfl
  | cons c rest =>
    obtain ⟨minus, plus⟩ := plain c rfl
    rw [sign]
    · rintro _ ⟨rfl, -⟩
      exact minus rfl
    · rintro _ ⟨rfl, -⟩
      exact plus rfl

/-- A sign is read from what follows it if that begins with no sign of its own. -/
theorem sign_append {s cs : List Char} (signed : IsSign s)
    (plain : ∀ c ∈ cs.head?, c ≠ '-' ∧ c ≠ '+') : (sign (s ++ cs)).2 = cs := by
  cases signed with
  | plus => rfl
  | minus => rfl
  | none => rw [List.nil_append, sign_of_head plain]

/-- What is read as a sign is one. -/
theorem exists_sign (cs : List Char) : ∃ s, IsSign s ∧ cs = s ++ (sign cs).2 := by
  unfold sign
  split
  · exact ⟨['-'], .minus, rfl⟩
  · exact ⟨['+'], .plus, rfl⟩
  · exact ⟨[], .none, rfl⟩

/-- Digits end where something else begins. -/
theorem span_digits {ds rest : List Char} (digits : ∀ d ∈ ds, d.isDigit = true)
    (stop : ∀ c ∈ rest.head?, c.isDigit = false) :
    (ds ++ rest).takeWhile Char.isDigit = ds ∧ (ds ++ rest).dropWhile Char.isDigit = rest := by
  rw [List.takeWhile_append_of_pos digits, List.dropWhile_append_of_pos digits]
  cases rest with
  | nil => simp
  | cons c rest =>
    have other : c.isDigit = false := stop c rfl
    simp [other]

/-- What begins with digits begins with a digit. -/
theorem IsDigits.head {ds : List Char} (digits : IsDigits ds) (rest : List Char) :
    ∀ c ∈ (ds ++ rest).head?, c.isDigit = true := by
  obtain ⟨d, more, rfl⟩ := List.exists_cons_of_ne_nil digits.1
  intro c first
  cases first
  exact digits.2 d List.mem_cons_self

/-- A digit is no other character. -/
theorem ne_of_isDigit {c d : Char} (digit : c.isDigit = true) (other : d.isDigit = false) :
    c ≠ d := by
  rintro rfl
  rw [digit] at other
  cases other

/-- What a magnitude begins with is no sign. -/
theorem IsMagnitude.head {m : List Char} (magnitude : IsMagnitude m) (rest : List Char) :
    ∀ c ∈ (m ++ rest).head?, c ≠ '-' ∧ c ≠ '+' := by
  intro c first
  cases magnitude with
  | whole digits =>
    have digit := digits.head rest c first
    exact ⟨ne_of_isDigit digit rfl, ne_of_isDigit digit rfl⟩
  | point digits more =>
    rw [List.append_assoc] at first
    have digit := digits.head _ c first
    exact ⟨ne_of_isDigit digit rfl, ne_of_isDigit digit rfl⟩
  | bare digits =>
    cases first
    decide

/-- Behind the letter of an exponent stand digits, apart from their sign. -/
theorem isSome_exponent?_cons_iff (mark : Char) (rest : List Char) :
    (exponent? (mark :: rest)).isSome = true ↔ mark ∈ ['e', 'E'] ∧ IsDigits (sign rest).2 := by
  simp only [exponent?, List.mem_cons, List.not_mem_nil, or_false, IsDigits]
  by_cases marked : mark = 'e' ∨ mark = 'E'
  · rw [if_pos marked, and_iff_right marked]
    generalize (sign rest).2 = ds
    cases ds with
    | nil => simp
    | cons d ds => simp
  · simp [marked]

/-- An exponent can be read where there is one, or nothing at all. -/
theorem isSome_exponent?_iff (cs : List Char) : (exponent? cs).isSome = true ↔ IsExponent cs := by
  cases cs with
  | nil => exact iff_of_true rfl .none
  | cons mark rest =>
    rw [isSome_exponent?_cons_iff]
    constructor
    · intro ⟨marked, digits⟩
      obtain ⟨s, signed, split⟩ := exists_sign rest
      rw [split]
      exact .power marked signed digits
    · intro written
      cases written with
      | @power _ s ds marked signed digits =>
        refine ⟨marked, ?_⟩
        -- The digits begin with no sign, so the sign that was written is the one that is read.
        have plain : ∀ c ∈ ds.head?, c ≠ '-' ∧ c ≠ '+' := by
          intro c first
          have digit := digits.head [] c (by rwa [List.append_nil])
          exact ⟨ne_of_isDigit digit rfl, ne_of_isDigit digit rfl⟩
        rwa [sign_append signed plain]

/-- What an exponent begins with is no digit and no point. -/
theorem IsExponent.head {e : List Char} (exponent : IsExponent e) :
    ∀ c ∈ e.head?, c.isDigit = false ∧ c ≠ '.' := by
  cases exponent with
  | none => simp
  | power marked signed digits =>
    intro c first
    cases first
    simp only [List.mem_cons, List.not_mem_nil, or_false] at marked
    rcases marked with rfl | rfl <;> decide

/-- Digits with a point behind them, and what is read of the rest. -/
theorem unsigned?_point {whole : List Char} (digits : ∀ d ∈ whole, d.isDigit = true)
    (rest : List Char) :
    unsigned? (whole ++ '.' :: rest)
      = if whole.isEmpty && (rest.takeWhile Char.isDigit).isEmpty then none
        else (exponent? (rest.dropWhile Char.isDigit)).map fun e =>
          (natOfDigits (whole ++ rest.takeWhile Char.isDigit),
            e - ((rest.takeWhile Char.isDigit).length : Int)) := by
  have stop : ∀ c ∈ ('.' :: rest).head?, c.isDigit = false := by simp
  have span := span_digits digits stop
  simp only [unsigned?, span.1, span.2]

/-- Digits without a point behind them. -/
theorem unsigned?_whole {whole rest : List Char} (digits : ∀ d ∈ whole, d.isDigit = true)
    (stop : ∀ c ∈ rest.head?, c.isDigit = false ∧ c ≠ '.') :
    unsigned? (whole ++ rest)
      = if whole.isEmpty then none
        else (exponent? rest).map fun e => (natOfDigits whole, e) := by
  have span := span_digits digits fun c first => (stop c first).1
  simp only [unsigned?, span.1, span.2]
  split
  · exact absurd rfl (stop '.' rfl).2
  · simp

/-- A decimal without a sign is digits, perhaps with a point, and an exponent. -/
theorem isSome_unsigned?_iff (cs : List Char) :
    (unsigned? cs).isSome = true ↔ ∃ m e, cs = m ++ e ∧ IsMagnitude m ∧ IsExponent e := by
  constructor
  · intro read
    have split : cs = cs.takeWhile Char.isDigit ++ cs.dropWhile Char.isDigit :=
      List.takeWhile_append_dropWhile.symm
    have digits : ∀ d ∈ cs.takeWhile Char.isDigit, d.isDigit = true :=
      fun d among => List.mem_takeWhile_imp among
    have stop : ∀ c ∈ (cs.dropWhile Char.isDigit).head?, c.isDigit = false := by
      intro c first
      have := List.head?_dropWhile_not Char.isDigit cs
      simpa [Option.mem_def.mp first] using this
    generalize cs.takeWhile Char.isDigit = whole at split digits
    generalize cs.dropWhile Char.isDigit = after at split stop
    subst split
    -- The digits at the front are followed by a point or not.
    by_cases point : ∃ rest, after = '.' :: rest
    · obtain ⟨rest, rfl⟩ := point
      rw [unsigned?_point digits] at read
      split_ifs at read with empty
      · cases read
      rw [Option.isSome_map, isSome_exponent?_iff] at read
      have fraction : ∀ d ∈ rest.takeWhile Char.isDigit, d.isDigit = true :=
        fun d among => List.mem_takeWhile_imp among
      refine ⟨whole ++ '.' :: rest.takeWhile Char.isDigit, rest.dropWhile Char.isDigit, ?_, ?_,
        read⟩
      · rw [List.append_assoc, List.cons_append, List.takeWhile_append_dropWhile]
      · -- With no digits before the point there are some after it.
        cases whole with
        | nil =>
          refine .bare ⟨?_, fraction⟩
          simpa using empty
        | cons d whole => exact .point ⟨by simp, digits⟩ fraction
    · have stop : ∀ c ∈ after.head?, c.isDigit = false ∧ c ≠ '.' := by
        intro c first
        refine ⟨stop c first, ?_⟩
        rintro rfl
        exact point (List.head?_eq_some_iff.mp first)
      rw [unsigned?_whole digits stop] at read
      split_ifs at read with empty
      · cases read
      rw [Option.isSome_map, isSome_exponent?_iff] at read
      exact ⟨whole, after, rfl, .whole ⟨by simpa using empty, digits⟩, read⟩
  · rintro ⟨m, e, rfl, magnitude, exponent⟩
    -- What follows the digits was written as no digit, so reading stops where writing did.
    have read := (isSome_exponent?_iff e).mpr exponent
    cases magnitude with
    | whole digits =>
      rw [unsigned?_whole digits.2 exponent.head]
      simpa [digits.1] using read
    | @point whole fraction digits more =>
      have span := span_digits more fun c first => (exponent.head c first).1
      rw [List.append_assoc, List.cons_append, unsigned?_point digits.2, span.1, span.2]
      simpa [digits.1] using read
    | @bare fraction digits =>
      have span := span_digits digits.2 fun c first => (exponent.head c first).1
      rw [← List.nil_append ('.' :: fraction), List.append_assoc, List.cons_append,
        unsigned?_point (by simp), span.1, span.2]
      simpa [digits.1] using read

/-! ## Whole tokens -/

/-- A decimal has a sign in front of that. -/
theorem isSome_decimal?_iff (cs : List Char) :
    (decimal? cs).isSome = true ↔
      ∃ s m e, cs = s ++ (m ++ e) ∧ IsSign s ∧ IsMagnitude m ∧ IsExponent e := by
  rw [decimal?, Option.isSome_map, isSome_unsigned?_iff]
  constructor
  · intro ⟨m, e, rest, magnitude, exponent⟩
    obtain ⟨s, signed, split⟩ := exists_sign cs
    exact ⟨s, m, e, rest ▸ split, signed, magnitude, exponent⟩
  · rintro ⟨s, m, e, rfl, signed, magnitude, exponent⟩
    exact ⟨m, e, sign_append signed (magnitude.head e), magnitude, exponent⟩

/-- Characters of decimals. -/
def IsDecimalChar (c : Char) : Prop := c.isDigit = true ∨ c ∈ ['+', '-', '.', 'e', 'E']

/-- A sign is written in characters of decimals. -/
theorem IsSign.chars {s : List Char} (signed : IsSign s) : ∀ c ∈ s, IsDecimalChar c := by
  intro c among
  right
  cases signed <;> simp_all

/-- So are the three parts of a decimal. -/
theorem isDecimalChar_of_mem {s m e : List Char} (signed : IsSign s) (magnitude : IsMagnitude m)
    (exponent : IsExponent e) : ∀ c ∈ s ++ (m ++ e), IsDecimalChar c := by
  have inMagnitude : ∀ c ∈ m, IsDecimalChar c := by
    intro c among
    cases magnitude with
    | whole digits => exact .inl (digits.2 c among)
    | point digits more =>
      rcases List.mem_append.mp among with among | among
      · exact .inl (digits.2 c among)
      · rcases List.mem_cons.mp among with rfl | among
        · exact .inr (by decide)
        · exact .inl (more c among)
    | bare digits =>
      rcases List.mem_cons.mp among with rfl | among
      · exact .inr (by decide)
      · exact .inl (digits.2 c among)
  have inExponent : ∀ c ∈ e, IsDecimalChar c := by
    intro c among
    cases exponent with
    | none => cases among
    | power marked signed digits =>
      rcases List.mem_cons.mp among with rfl | among
      · have letters : ['e', 'E'] ⊆ ['+', '-', '.', 'e', 'E'] := by decide
        exact .inr (letters marked)
      · rcases List.mem_append.mp among with among | among
        · exact signed.chars c among
        · exact .inl (digits.2 c among)
  intro c among
  rcases List.mem_append.mp among with among | among
  · exact signed.chars c among
  · exact (List.mem_append.mp among).elim (inMagnitude c) (inExponent c)

/-- No mark of a radix stands in a decimal. -/
theorem radixOf?_of_isDecimalChar {c : Char} (h : IsDecimalChar c) : radixOf? c = none := by
  cases known : radixOf? c with
  | none => rfl
  | some base =>
    have marked := radixOf?_eq_some_iff.mp known
    simp only [radixMarks, List.mem_cons, List.not_mem_nil, or_false, Prod.mk.injEq] at marked
    rcases marked with ⟨rfl, _⟩ | ⟨rfl, _⟩ | ⟨rfl, _⟩ | ⟨rfl, _⟩ | ⟨rfl, _⟩ | ⟨rfl, _⟩ <;>
      exact absurd h (by unfold IsDecimalChar; decide)

/-- A radix is read where a zero and its mark stand in front. -/
theorem radix?_eq_some_iff {cs ds : List Char} {base : Nat} :
    radix? cs = some (base, ds) ↔ ∃ mark, (mark, base) ∈ radixMarks ∧ cs = '0' :: mark :: ds := by
  constructor
  · intro found
    unfold radix? at found
    split at found
    · rename_i mark rest
      obtain ⟨base', known, same⟩ := Option.map_eq_some_iff.mp found
      cases same
      exact ⟨mark, radixOf?_eq_some_iff.mp known, rfl⟩
    · cases found
  · rintro ⟨mark, marked, rfl⟩
    rw [radix?, radixOf?_eq_some_iff.mpr marked]
    rfl

/-- A text of characters of decimals is read as a decimal: it has no radix, and it is no word. -/
theorem token?_of_isDecimalChar {cs : List Char} (some : cs ≠ [])
    (chars : ∀ c ∈ cs, IsDecimalChar c) : token? cs = decimal? cs := by
  have other : radix? cs = none := by
    rw [Option.eq_none_iff_forall_not_mem]
    rintro ⟨base, ds⟩ found
    obtain ⟨mark, marked, rfl⟩ := radix?_eq_some_iff.mp found
    have none := radixOf?_of_isDecimalChar (chars mark (by simp))
    rw [radixOf?_eq_some_iff.mpr marked] at none
    cases none
  -- Every word has a capital letter in it that no decimal has.
  have letter : ¬ IsDecimalChar 'I' := by
    unfold IsDecimalChar
    decide
  have word {text : List Char} (among : 'I' ∈ text) : cs ≠ text := by
    rintro rfl
    exact letter (chars _ among)
  have positive : ¬ (cs = "Infinity".toList ∨ cs = "+Infinity".toList) :=
    not_or.mpr ⟨word (by decide), word (by decide)⟩
  rw [token?, if_neg some, if_neg positive, if_neg (word (by decide)), other]

/-- A token that begins with a digit is no word. -/
theorem token?_of_digit {c : Char} (digit : c.isDigit = true) (rest : List Char) :
    token? (c :: rest) = match radix? (c :: rest) with
      | some (radix, ds) => radixDigits? radix ds
      | none => decimal? (c :: rest) := by
  have word {d : Char} (letters : List Char) (other : d.isDigit = false) :
      c :: rest ≠ d :: letters := by
    intro same
    exact ne_of_isDigit digit other (List.cons.inj same).1
  have positive : ¬ (c :: rest = "Infinity".toList ∨ c :: rest = "+Infinity".toList) := by
    rw [not_or]
    exact ⟨word _ rfl, word _ rfl⟩
  have negative : c :: rest ≠ "-Infinity".toList := word _ rfl
  rw [token?, if_neg (List.cons_ne_nil c rest), if_neg positive]
  exact if_neg negative

/-- Behind a zero and a mark stand the digits of the radix. -/
theorem token?_radix {mark : Char} {base : Nat} (marked : (mark, base) ∈ radixMarks)
    (ds : List Char) : token? ('0' :: mark :: ds) = radixDigits? base ds := by
  have found : radix? ('0' :: mark :: ds) = some (base, ds) :=
    radix?_eq_some_iff.mpr ⟨mark, marked, rfl⟩
  rw [token?_of_digit rfl, found]

/-- A token without blanks around it is read as a number exactly if the grammar has it. -/
theorem isSome_token?_iff (cs : List Char) : (token? cs).isSome = true ↔ IsNumber cs := by
  constructor
  · intro read
    unfold token? at read
    -- The empty token and the words come first, and then a radix.
    split_ifs at read with empty positive negative
    · subst empty
      exact .empty
    · rcases positive with rfl | rfl
      · exact .infinity .none
      · exact .infinity .plus
    · subst negative
      exact .infinity .minus
    · split at read
      · rename_i base ds found
        obtain ⟨mark, marked, rfl⟩ := radix?_eq_some_iff.mp found
        rw [isSome_radixDigits?_iff (le_of_mem_radixMarks marked)] at read
        exact .radix marked read.1 read.2
      · obtain ⟨s, m, e, rfl, signed, magnitude, exponent⟩ := (isSome_decimal?_iff cs).mp read
        exact .decimal signed magnitude exponent
  · intro written
    cases written with
    | empty => rfl
    | infinity signed =>
      cases signed <;> rfl
    | @radix mark base ds marked some digits =>
      rw [token?_radix marked, isSome_radixDigits?_iff (le_of_mem_radixMarks marked)]
      exact ⟨some, digits⟩
    | @decimal s m e signed magnitude exponent =>
      have read := (isSome_decimal?_iff _).mpr ⟨s, m, e, rfl, signed, magnitude, exponent⟩
      -- A decimal has neither a mark nor a word in it, so the cases before it are passed over.
      have chars := isDecimalChar_of_mem signed magnitude exponent
      generalize s ++ (m ++ e) = cs at read chars
      rcases eq_or_ne cs [] with rfl | some
      · rfl
      · rwa [token?_of_isDecimalChar some chars]

/-! ## Blanks around a token -/

/-- Decimals are written in visible characters of ASCII. -/
theorem IsDecimalChar.ascii {c : Char} (h : IsDecimalChar c) :
    0x21 ≤ c.toNat ∧ c.toNat ≤ 0x7E := by
  rcases h with digit | sign
  · have range := (isDigit_iff c).mp digit
    omega
  · simp only [List.mem_cons, List.not_mem_nil, or_false] at sign
    rcases sign with rfl | rfl | rfl | rfl | rfl <;> decide

/-- Numbers are written in visible characters. -/
theorem IsNumber.visible {cs : List Char} (number : IsNumber cs) :
    ∀ c ∈ cs, Text.isBlank c = false := by
  -- No character of any rule is a blank, so trimming stops at the number.
  have decimalChar {c : Char} (h : IsDecimalChar c) : Text.isBlank c = false :=
    Text.isBlank_of_visible h.ascii.1 h.ascii.2
  intro c among
  cases number with
  | empty => cases among
  | infinity signed =>
    rcases List.mem_append.mp among with sign | letter
    · exact decimalChar (signed.chars c sign)
    · exact Text.isBlank_of_mem (by decide) letter
  | radix marked some digits =>
    have marks : ∀ known ∈ radixMarks, Text.isBlank known.1 = false := by decide
    rcases List.mem_cons.mp among with rfl | among
    · rfl
    rcases List.mem_cons.mp among with rfl | among
    · exact marks _ marked
    rcases digits c among with digit | digit
    · exact Text.isBlank_of_mem (by decide) (List.mem_of_mem_take digit)
    · exact Text.isBlank_of_mem (by decide) (List.mem_of_mem_take digit)
  | decimal signed magnitude exponent =>
    exact decimalChar (isDecimalChar_of_mem signed magnitude exponent c among)

end Literal

/-- A token is a number exactly if, apart from blanks around it, the grammar of numbers has it. -/
theorem parseNumber_accepts (s : String) :
    (parseNumber s).isSome = true ↔
      ∃ front number back, s.toList = front ++ (number ++ back) ∧ Literal.IsNumber number ∧
        (∀ c ∈ front, Text.isBlank c = true) ∧ ∀ c ∈ back, Text.isBlank c = true := by
  rw [parseNumber, Literal.isSome_token?_iff]
  constructor
  · intro number
    obtain ⟨front, back, split, before, after⟩ := Text.exists_eq_strip s.toList
    exact ⟨front, _, back, split, number, before, after⟩
  · intro ⟨front, number, back, split, written, before, after⟩
    have kept : Text.strip s.toList = number := by
      rw [split]
      refine Text.strip_between before after ?_ ?_
      · intro c first
        exact written.visible c (List.mem_of_mem_head? first)
      · intro c last
        exact written.visible c (List.mem_of_mem_getLast? last)
    rwa [kept]

example : ["1e", ".", "NaN", "inf", "1_0", "-0x1", "0x"].all (parseNumber · |>.isNone) := by
  decide

end Linework
