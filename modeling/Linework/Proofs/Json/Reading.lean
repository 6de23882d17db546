import Linework.Json.Parser
import Linework.Json.Printer
import Linework.Proofs.Json.Quoting
import Mathlib.Data.List.TakeWhile
import Mathlib.Tactic.IntervalCases

/-!
# `Linework.Proofs.Json.Reading`: what was printed reads back

A value is `Readable` if its numbers are number literals and its strings are string literals.
Printed over several lines, such a value reads back as itself (`parse?_pretty`), and its literals
come back the way they were written.

The reader takes from its characters what belongs to a token and leaves the rest. A string ends at
its own quote, whatever follows. A number has no end of its own: it is read in full only if the
characters after it do not go on with it (`Stops`), which a comma and a line break do not.

The bound on the calls of the reader is twice the number of characters that it is given to read.
Every call but one in two takes a character, so the bound goes down with the text.
-/

set_option autoImplicit false

namespace Linework.Json

/-! ## Numbers -/

/-- The characters do not go on with a number that ends before them. -/
def Stops (rest : List Char) : Prop :=
  ∀ c ∈ rest.head?, c.isDigit = false ∧ c ≠ '.' ∧ c ≠ 'e' ∧ c ≠ 'E'

/-- The end of the text does not go on with a number. -/
theorem stops_nil : Stops [] := by simp [Stops]

/-- Nor does a comma. -/
theorem stops_comma (rest : List Char) : Stops (',' :: rest) := by
  rintro _ ⟨⟩
  decide

/-- Nor does a line break with its indentation. -/
theorem stops_newline (level : Nat) (rest : List Char) : Stops (newline level ++ rest) := by
  rintro _ ⟨⟩
  decide

section Numbers

variable {rest : List Char} (stops : Stops rest)
include stops

/-- The digits at the front end where they ended before. -/
theorem digits_append (cs : List Char) :
    (cs ++ rest).takeWhile Char.isDigit = cs.takeWhile Char.isDigit ∧
      (cs ++ rest).dropWhile Char.isDigit = cs.dropWhile Char.isDigit ++ rest := by
  induction cs with
  | nil =>
    cases rest with
    | nil => exact ⟨rfl, rfl⟩
    | cons c rest =>
      have noDigit : c.isDigit = false := (stops c rfl).1
      simp [noDigit]
  | cons c cs ih => cases digit : c.isDigit <;> simp [digit, ih]

/-- A run of digits is read as far as it was read alone. -/
theorem digitRun?_append {cs ds left : List Char} (h : digitRun? cs = some (ds, left)) :
    digitRun? (cs ++ rest) = some (ds, left ++ rest) := by
  obtain ⟨taken, dropped⟩ := digits_append stops cs
  rw [digitRun?, taken, dropped]
  simp only [digitRun?] at h
  split at h
  · cases h
  · cases h
    simp_all

/-- So is the whole part of a number. -/
theorem wholePart?_append {cs ds left : List Char} (h : wholePart? cs = some (ds, left)) :
    wholePart? (cs ++ rest) = some (ds, left ++ rest) := by
  unfold wholePart? at h
  split at h
  · cases h
    rfl
  · rename_i other
    -- There is a first digit, and it is not the zero.
    cases cs with
    | nil => cases h
    | cons c cs =>
      rw [List.cons_append, wholePart?, ← List.cons_append]
      · exact digitRun?_append stops h
      · rintro _ ⟨rfl, rfl⟩
        exact other cs rfl

/-- So is its fraction, and where it has none, none begins behind it. -/
theorem fractionPart?_append {cs ds left : List Char} (h : fractionPart? cs = some (ds, left)) :
    fractionPart? (cs ++ rest) = some (ds, left ++ rest) := by
  unfold fractionPart? at h
  split at h
  · obtain ⟨⟨run, after⟩, digits, same⟩ := Option.map_eq_some_iff.mp h
    cases same
    rw [List.cons_append, fractionPart?, digitRun?_append stops digits]
    rfl
  · rename_i other
    cases h
    rw [fractionPart?]
    intro after same
    cases cs with
    | nil => exact (stops '.' (by simp_all)).2.1 rfl
    | cons c cs =>
      cases same
      exact other cs rfl

/-- So is its exponent, and where it has none, none begins behind it. -/
theorem exponentPart?_append {cs ds left : List Char} (h : exponentPart? cs = some (ds, left)) :
    exponentPart? (cs ++ rest) = some (ds, left ++ rest) := by
  cases cs with
  | nil =>
    cases h
    cases rest with
    | nil => rfl
    | cons c rest =>
      obtain ⟨-, -, lower, upper⟩ := stops c rfl
      simp [exponentPart?, lower, upper]
  | cons c cs =>
    by_cases letter : c = 'e' ∨ c = 'E'
    · cases cs with
      | nil => simp [exponentPart?, letter] at h
      | cons m more =>
        -- With a sign or without one, the digits come next.
        by_cases sign : m = '+' ∨ m = '-'
        · simp only [exponentPart?, letter, sign, if_true, List.cons_append] at h ⊢
          obtain ⟨⟨run, after⟩, digits, same⟩ := Option.map_eq_some_iff.mp h
          cases same
          rw [digitRun?_append stops digits]
          rfl
        · simp only [exponentPart?, letter, sign, if_true, if_false, List.cons_append] at h ⊢
          obtain ⟨⟨run, after⟩, digits, same⟩ := Option.map_eq_some_iff.mp h
          cases same
          rw [← List.cons_append, digitRun?_append stops digits]
          rfl
    · simp only [exponentPart?, letter, if_false, List.cons_append] at h ⊢
      cases h
      rfl

/-- So is a number without its sign. -/
theorem magnitude?_append {cs ds left : List Char} (h : magnitude? cs = some (ds, left)) :
    magnitude? (cs ++ rest) = some (ds, left ++ rest) := by
  simp only [magnitude?, Option.bind_eq_bind, Option.bind_eq_some_iff, Prod.exists] at h ⊢
  obtain ⟨whole, afterWhole, first, fraction, afterFraction, second, exponent, end', third, same⟩ :=
    h
  cases same
  exact ⟨whole, _, wholePart?_append stops first, fraction, _, fractionPart?_append stops second,
    exponent, _, exponentPart?_append stops third, rfl⟩

/-- A number is read as far as it was read alone. -/
theorem number?_append {cs ds left : List Char} (h : number? cs = some (ds, left)) :
    number? (cs ++ rest) = some (ds, left ++ rest) := by
  unfold number? at h
  split at h
  · obtain ⟨⟨magnitude, after⟩, read, same⟩ := Option.map_eq_some_iff.mp h
    cases same
    rw [List.cons_append, number?, magnitude?_append stops read]
    rfl
  · rename_i other
    cases cs with
    | nil => cases h
    | cons c cs =>
      rw [List.cons_append, number?, ← List.cons_append]
      · exact magnitude?_append stops h
      · rintro _ ⟨rfl, rfl⟩
        exact other cs rfl

end Numbers

/-- A number begins with its sign or with a digit. -/
theorem exists_cons_of_number? {cs : List Char} {r : List Char × List Char}
    (h : number? cs = some r) : ∃ c rest, cs = c :: rest ∧ (c = '-' ∨ c.isDigit = true) := by
  unfold number? at h
  split at h
  · exact ⟨'-', _, rfl, .inl rfl⟩
  · simp only [magnitude?, Option.bind_eq_bind, Option.bind_eq_some_iff, Prod.exists] at h
    obtain ⟨whole, after, first, -⟩ := h
    unfold wholePart? at first
    split at first
    · exact ⟨'0', _, rfl, .inr rfl⟩
    · cases cs with
      | nil => cases first
      | cons c cs =>
        refine ⟨c, cs, rfl, .inr ?_⟩
        cases digit : c.isDigit with
        | true => rfl
        | false => simp [digitRun?, digit] at first

section Begins

variable {c : Char} (h : c = '-' ∨ c.isDigit = true)
include h

/-- A number does not begin with any other character. -/
theorem ne_of_begins {d : Char} (noSign : d ≠ '-') (noDigit : d.isDigit = false) : c ≠ d := by
  rintro rfl
  rcases h with rfl | digit
  · exact noSign rfl
  · simp [digit] at noDigit

/-- It does not begin with a blank. -/
theorem isGap_of_begins : isGap c = false := by
  have other {d : Char} := ne_of_begins h (d := d)
  simp [isGap, other (d := ' ') (by decide) rfl, other (d := '\n') (by decide) rfl,
    other (d := '\t') (by decide) rfl, other (d := '\r') (by decide) rfl]

end Begins

/-! ## Strings -/

/-- A hexadecimal digit is neither a quote nor a backslash. -/
theorem plain_of_hexValue? {c : Char} {n : Nat} (h : hexValue? c = some n) :
    c ≠ '"' ∧ c ≠ '\\' := by
  constructor <;>
  · rintro rfl
    revert h
    decide +revert

/-- A string literal ends at the first quote that is not its own. -/
theorem literalEnd?_append {body : List Char} {ps : List Piece} (h : pieces? body = some ps)
    (rest : List Char) : literalEnd? (body ++ '"' :: rest) = some (body, rest) := by
  -- The cases are those of the pieces of a literal: an escaped unit, a short escape and a plain
  -- character.
  fun_induction pieces? body generalizing ps with
  | case1 => rfl
  | case2 a b c d more n ps' pieces unit ih =>
    simp only [hexUnit?, Option.bind_eq_bind, Option.bind_eq_some_iff] at unit
    obtain ⟨_, ha, _, hb, _, hc, _, hd, -⟩ := unit
    have ⟨_, a'⟩ := plain_of_hexValue? ha
    have ⟨_, b'⟩ := plain_of_hexValue? hb
    have ⟨_, c'⟩ := plain_of_hexValue? hc
    have ⟨_, d'⟩ := plain_of_hexValue? hd
    simp [literalEnd?, a', b', c', d', ih pieces]
  | case3 => cases h
  | case4 letter more other c ps' pieces named ih =>
    simp [literalEnd?, ih pieces]
  | case5 => cases h
  | case6 => cases h
  | case7 c more _ _ plain ih =>
    obtain ⟨ps', pieces, -⟩ := Option.map_eq_some_iff.mp h
    simp only [not_or] at plain
    simp [literalEnd?, plain.1, plain.2.1, ih pieces]

/-- A string literal is read up to the quote behind it. -/
theorem literal?_append {literal : String} (h : isLiteral literal.toList = true)
    (rest : List Char) : literal? (literal.toList ++ '"' :: rest) = some (literal, rest) := by
  obtain ⟨ps, pieces⟩ := Option.isSome_iff_exists.mp h
  simp [literal?, literalEnd?_append pieces, h]

/-! ## Values -/

mutual
/-- Every number of the value is a number literal, and every string a string literal. -/
def Readable : Json → Prop
  | .null => True
  | .bool _ => True
  | .number literal => number? literal.toList = some (literal.toList, [])
  | .string literal => isLiteral literal.toList = true
  | .array items => ReadableItems items
  | .object fields => ReadableFields fields
/-- All items are readable. -/
def ReadableItems : List Json → Prop
  | [] => True
  | v :: rest => Readable v ∧ ReadableItems rest
/-- All fields are readable, their names too. -/
def ReadableFields : List (String × Json) → Prop
  | [] => True
  | (name, v) :: rest => isLiteral name.toList = true ∧ Readable v ∧ ReadableFields rest
end

/-! ## Gaps -/

/-- A line break and its indentation are blanks. -/
theorem isGap_of_mem_newline (level : Nat) : ∀ c ∈ newline level, isGap c = true := by
  intro c among
  rcases List.mem_cons.mp among with rfl | among
  · rfl
  · rw [List.eq_of_mem_replicate among]
    rfl

/-- There is nothing to skip in front of a token. -/
theorem skipGap_cons {c : Char} (h : isGap c = false) (cs : List Char) :
    skipGap (c :: cs) = c :: cs := by
  simp [skipGap, h]

section Gaps

variable {gap : List Char} (h : ∀ c ∈ gap, isGap c = true)
include h

/-- Blanks in front are skipped with what is skipped after them. -/
theorem skipGap_append (cs : List Char) : skipGap (gap ++ cs) = skipGap cs :=
  List.dropWhile_append_of_pos h

/-- A value may have blanks before it. -/
theorem value?_gap (fuel : Nat) (cs : List Char) : value? fuel (gap ++ cs) = value? fuel cs := by
  cases fuel with
  | zero => rfl
  | succ fuel => rw [value?, value?, skipGap_append h]

/-- So may the items of a list. -/
theorem items?_gap (fuel : Nat) (cs : List Char) : items? fuel (gap ++ cs) = items? fuel cs := by
  cases fuel with
  | zero => rfl
  | succ fuel => rw [items?, items?, value?_gap h]

/-- So may the fields of an object. -/
theorem fields?_gap (fuel : Nat) (cs : List Char) : fields? fuel (gap ++ cs) = fields? fuel cs := by
  cases fuel with
  | zero => rfl
  | succ fuel => rw [fields?, fields?, skipGap_append h]

end Gaps

/-! ## Values without parts -/

/-- The first character of a value's text. It opens a list, an object or a string, or belongs to a
word or a number. -/
theorem exists_cons_of_pretty (level : Nat) {v : Json} (h : Readable v) :
    ∃ c rest, prettyChars level v = c :: rest ∧ isGap c = false ∧ c ≠ ']' := by
  match v, h with
  | .null, _ => exact ⟨'n', _, rfl, rfl, by decide⟩
  | .bool true, _ => exact ⟨'t', _, rfl, rfl, by decide⟩
  | .bool false, _ => exact ⟨'f', _, rfl, rfl, by decide⟩
  | .string _, _ => exact ⟨'"', _, rfl, rfl, by decide⟩
  | .array [], _ => exact ⟨'[', _, rfl, rfl, by decide⟩
  | .array (_ :: _), _ => exact ⟨'[', _, rfl, rfl, by decide⟩
  | .object [], _ => exact ⟨'{', _, rfl, rfl, by decide⟩
  | .object (_ :: _), _ => exact ⟨'{', _, rfl, rfl, by decide⟩
  | .number literal, h =>
    rw [Readable] at h
    obtain ⟨c, rest, chars, first⟩ := exists_cons_of_number? h
    exact ⟨c, rest, chars, isGap_of_begins first, ne_of_begins first (by decide) rfl⟩

/-- What is neither a list nor an object is read as it stands. -/
theorem value?_of_scalar? {fuel : Nat} {c : Char} {cs : List Char} (noGap : isGap c = false)
    (noList : c ≠ '[') (noObject : c ≠ '{') : value? (fuel + 1) (c :: cs) = scalar? (c :: cs) := by
  rw [value?, skipGap_cons noGap]
  split
  · simp_all
  · simp_all
  · rfl

/-- A number literal is read as a number, up to what stops it. -/
theorem value?_number {literal : String} (h : number? literal.toList = some (literal.toList, []))
    {rest : List Char} (stops : Stops rest) (fuel : Nat) :
    value? (fuel + 1) (literal.toList ++ rest) = some (.number literal, rest) := by
  have read := number?_append stops h
  obtain ⟨c, cs, chars, first⟩ := exists_cons_of_number? h
  have other {d : Char} := ne_of_begins first (d := d)
  rw [chars, List.cons_append, value?_of_scalar? (isGap_of_begins first)
    (other (by decide) rfl) (other (by decide) rfl), scalar?, ← List.cons_append, ← chars, read]
  · simp
  · exact fun _ same => other (by decide) rfl (List.cons.inj same).1
  · exact fun _ same => other (by decide) rfl (List.cons.inj same).1
  · exact fun _ same => other (by decide) rfl (List.cons.inj same).1
  · exact fun _ same => other (by decide) rfl (List.cons.inj same).1

/-- A string literal in its quotes is read as a string, whatever follows. -/
theorem value?_string {literal : String} (h : isLiteral literal.toList = true) (rest : List Char)
    (fuel : Nat) : value? (fuel + 1) (quoted literal ++ rest) = some (.string literal, rest) := by
  rw [quoted, List.cons_append, value?_of_scalar? rfl (by decide) (by decide), scalar?,
    List.append_assoc]
  simp [literal?_append h]

/-- A string literal in its quotes is read as a name if a colon follows. -/
theorem fieldName?_quoted {name : String} (h : isLiteral name.toList = true) (rest : List Char) :
    fieldName? (quoted name ++ ':' :: rest) = some (name, rest) := by
  simp [quoted, fieldName?, literal?_append h, skipGap, isGap]

/-! ## Values with parts -/

/-- No number goes on with the items that are left: they begin with a comma, or the list ends on a
new line. -/
theorem stops_prettyItems (level : Nat) (items : List Json) (rest : List Char) :
    Stops (prettyItems level items ++ rest) := by
  cases items with
  | nil =>
    rw [prettyItems, List.append_assoc]
    exact stops_newline level _
  | cons v items =>
    rw [prettyItems, List.cons_append]
    exact stops_comma _

/-- Nor with the fields that are left. -/
theorem stops_prettyFields (level : Nat) (fields : List (String × Json)) (rest : List Char) :
    Stops (prettyFields level fields ++ rest) := by
  cases fields with
  | nil =>
    rw [prettyFields, List.append_assoc]
    exact stops_newline level _
  | cons field fields =>
    rw [prettyFields, List.cons_append]
    exact stops_comma _

mutual
/-- A value is read from its text up to what follows. -/
theorem value?_pretty (level : Nat) {rest : List Char} (stops : Stops rest) (fuel : Nat)
    (v : Json) (h : Readable v) (enough : 2 * (prettyChars level v).length < fuel) :
    value? fuel (prettyChars level v ++ rest) = some (v, rest) := by
  -- Each of the three takes one call, and every part of a value is shorter than the value by two
  -- characters or more.
  obtain ⟨fuel, rfl⟩ : ∃ n, fuel = n + 1 := ⟨fuel - 1, by omega⟩
  match v, h with
  | .null, _ => rfl
  | .bool true, _ => rfl
  | .bool false, _ => rfl
  | .number literal, h =>
    rw [Readable] at h
    exact value?_number h stops fuel
  | .string literal, h =>
    rw [Readable] at h
    exact value?_string h rest fuel
  | .array [], _ => rfl
  | .object [], _ => rfl
  | .array (v :: items), h =>
    rw [Readable, ReadableItems] at h
    simp only [prettyChars, List.cons_append, List.append_assoc, List.length_cons,
      List.length_append] at enough ⊢
    -- The first item does not look like the end of the list.
    obtain ⟨c, cs, chars, noGap, noEnd⟩ := exists_cons_of_pretty (level + 1) h.1
    have read := items?_pretty level rest fuel v items h.1 h.2 (by omega)
    rw [value?, skipGap_cons rfl]
    simp only [skipGap_append (isGap_of_mem_newline _), items?_gap (isGap_of_mem_newline _), read]
    rw [chars, List.cons_append, skipGap_cons noGap]
    simp [noEnd]
  | .object ((name, v) :: fields), h =>
    rw [Readable, ReadableFields] at h
    simp only [prettyChars, List.cons_append, List.append_assoc, List.length_cons,
      List.length_append] at enough ⊢
    have read := fields?_pretty level rest fuel name v fields h.1 h.2.1 h.2.2 (by omega)
    rw [value?, skipGap_cons rfl]
    simp only [skipGap_append (isGap_of_mem_newline _), fields?_gap (isGap_of_mem_newline _), read]
    rw [quoted, List.cons_append, skipGap_cons rfl]
    rfl
/-- Items are read up to the closing bracket. -/
theorem items?_pretty (level : Nat) (rest : List Char) (fuel : Nat) (v : Json) (items : List Json)
    (h : Readable v) (others : ReadableItems items)
    (enough : 2 * ((prettyChars (level + 1) v).length + (prettyItems level items).length) < fuel) :
    items? fuel (prettyChars (level + 1) v ++ (prettyItems level items ++ rest))
      = some (v :: items, rest) := by
  obtain ⟨fuel, rfl⟩ : ∃ n, fuel = n + 1 := ⟨fuel - 1, by omega⟩
  have first := value?_pretty (level + 1) (stops_prettyItems level items rest) fuel v h
  match items, others with
  | [], _ =>
    simp only [prettyItems, newline, List.length_append, List.length_cons] at enough
    rw [items?, first (by omega)]
    simp only [prettyItems, List.append_assoc, skipGap_append (isGap_of_mem_newline _)]
    rfl
  | next :: items, others =>
    rw [ReadableItems] at others
    simp only [prettyItems, newline, List.length_append, List.length_cons] at enough
    have read := items?_pretty level rest fuel next items others.1 others.2 (by omega)
    rw [items?, first (by omega)]
    simp only [prettyItems, List.cons_append, List.append_assoc]
    rw [skipGap_cons (by rfl)]
    simp only [items?_gap (isGap_of_mem_newline _), read]
    rfl
/-- Fields are read up to the closing brace. -/
theorem fields?_pretty (level : Nat) (rest : List Char) (fuel : Nat) (name : String) (v : Json)
    (fields : List (String × Json)) (named : isLiteral name.toList = true) (h : Readable v)
    (others : ReadableFields fields)
    (enough :
      2 * ((prettyChars (level + 1) v).length + (prettyFields level fields).length) < fuel) :
    fields? fuel (quoted name ++ ':' :: ' ' ::
      (prettyChars (level + 1) v ++ (prettyFields level fields ++ rest)))
        = some ((name, v) :: fields, rest) := by
  obtain ⟨fuel, rfl⟩ : ∃ n, fuel = n + 1 := ⟨fuel - 1, by omega⟩
  have first := value?_pretty (level + 1) (stops_prettyFields level fields rest) fuel v h
  -- The name, its colon and the blank after that.
  have before (cs : List Char) : fieldName? (skipGap (quoted name ++ ':' :: ' ' :: cs))
      = some (name, [' '] ++ cs) := by
    rw [show skipGap (quoted name ++ ':' :: ' ' :: cs) = quoted name ++ ':' :: ' ' :: cs from rfl]
    exact fieldName?_quoted named _
  have blank : ∀ c ∈ [' '], isGap c = true := by simp [isGap]
  match fields, others with
  | [], _ =>
    simp only [prettyFields, newline, List.length_append, List.length_cons] at enough
    rw [fields?, before]
    simp only [value?_gap blank, first (by omega)]
    simp only [prettyFields, List.append_assoc, skipGap_append (isGap_of_mem_newline _)]
    rfl
  | (name', next) :: fields, others =>
    rw [ReadableFields] at others
    simp only [prettyFields, newline, List.length_append, List.length_cons] at enough
    have read := fields?_pretty level rest fuel name' next fields others.1 others.2.1
      others.2.2 (by omega)
    rw [fields?, before]
    simp only [value?_gap blank, first (by omega)]
    simp only [prettyFields, List.cons_append, List.append_assoc]
    rw [skipGap_cons (by rfl)]
    simp only [fields?_gap (isGap_of_mem_newline _), read]
    rfl
end

/-- A readable value that is printed over several lines reads back as itself. -/
theorem parse?_pretty {v : Json} (h : Readable v) : parse? v.pretty = some v := by
  have read := value?_pretty 0 stops_nil (2 * v.pretty.length + 1) v h (by simp [pretty])
  rw [List.append_nil] at read
  simp [parse?, pretty, String.toList_ofList, skipGap] at read ⊢
  simp [read]

/-! ## Texts, numbers and records -/

/-- A text is written as a string literal. -/
theorem readable_text (s : String) : Readable (text s) := by
  rw [text, Readable]
  exact isLiteral_quote s

/-- And it is read back from it. -/
theorem text?_text (s : String) : (text s).text? = some s := unquote?_quote s

/-- The digits of a positive number do not begin with a zero. -/
theorem exists_cons_of_digits {n : Nat} (pos : 0 < n) :
    ∃ c cs, NumberFormat.digits n = c :: cs ∧ c ≠ '0' := by
  induction n using Nat.strongRecOn with
  | ind n ih =>
    rw [NumberFormat.digits, Nat.toDigits_eq_if (by decide)]
    split
    · rename_i small
      refine ⟨n.digitChar, [], rfl, ?_⟩
      interval_cases n <;> decide
    · obtain ⟨c, cs, digits, ne⟩ := ih (n / 10) (by omega) (by omega)
      exact ⟨c, cs ++ [(n % 10).digitChar], congrArg (· ++ _) digits, ne⟩

/-- The digits of a number are digits. -/
theorem isDigit_of_mem_digits {n : Nat} {c : Char} (h : c ∈ NumberFormat.digits n) :
    c.isDigit = true :=
  Nat.isDigit_of_mem_toDigits (by decide) (by decide) h

/-- A natural number is written as a number literal. -/
theorem number?_digits (n : Nat) :
    number? (NumberFormat.digits n) = some (NumberFormat.digits n, []) := by
  rcases Nat.eq_zero_or_pos n with rfl | pos
  · rfl
  · obtain ⟨c, cs, digits, nonzero⟩ := exists_cons_of_digits pos
    have all : ∀ d ∈ c :: cs, d.isDigit = true := by
      intro d among
      rw [← digits] at among
      exact isDigit_of_mem_digits among
    -- The digits are one run, with nothing left behind it.
    have run : digitRun? (c :: cs) = some (c :: cs, []) := by
      simp [digitRun?, List.takeWhile_eq_self_iff.mpr all, List.dropWhile_eq_nil_iff.mpr all]
    have noSign : c ≠ '-' := by
      rintro rfl
      exact absurd (all '-' List.mem_cons_self) (by decide)
    simp [digits, number?, magnitude?, wholePart?, fractionPart?, exponentPart?, noSign, nonzero,
      run]

/-- A natural number is readable where it is written. -/
theorem readable_ofNat (n : Nat) : Readable (ofNat n) := by
  rw [ofNat, Readable, numeral, String.toList_ofList]
  exact number?_digits n

/-- And it is read back from there. -/
theorem natural?_ofNat (n : Nat) : (ofNat n).natural? = some n := by
  have some : (numeral n).isEmpty = false := by
    rw [← Bool.not_eq_true, String.isEmpty_iff]
    intro empty
    have : NumberFormat.digits n = [] := by simpa [numeral] using congrArg String.toList empty
    exact Nat.toDigits_ne_nil this
  have all : (numeral n).toList.all Char.isDigit = true := by
    simpa [numeral] using fun c => isDigit_of_mem_digits (n := n) (c := c)
  simp [natural?, ofNat, some, all]
  simp [numeral, NumberFormat.digits]

/-- A record is readable if its values are. -/
theorem readable_record {fields : List (String × Json)} (h : ∀ field ∈ fields, Readable field.2) :
    Readable (record fields) := by
  rw [record, Readable]
  induction fields with
  | nil => trivial
  | cons field fields ih =>
    obtain ⟨first, others⟩ := List.forall_mem_cons.mp h
    exact ⟨isLiteral_quote field.1, first, ih others⟩

end Linework.Json
