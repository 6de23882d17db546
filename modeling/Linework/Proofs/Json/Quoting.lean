import Linework.Json.Quoted
import Mathlib.Tactic.SplitIfs

/-!
# `Linework.Proofs.Json.Quoting`: a quoted text denotes the text

Quoting goes character by character, and each character becomes one piece of the literal: a short
escape or the character itself names the character, and a `\u` escape names a code unit below the
first surrogate, which stands alone. So the pieces of a quoted text are those of its characters
(`pieces?_quoteChars`), and joined they are the text again (`unquote?_quote`). This is so for every
text.
-/

set_option autoImplicit false

namespace Linework.Json

/-- The piece that a character is quoted as. -/
def pieceOf (c : Char) : Piece :=
  if shortEscape? c = none ∧ c.toNat < 0x20 then .unit c.toNat else .char c

/-- A letter that a short escape writes names the character again. -/
theorem shortEscaped?_of_shortEscape? {c letter : Char} (h : shortEscape? c = some letter) :
    shortEscaped? letter = some c ∧ letter ≠ 'u' := by
  unfold shortEscape? at h
  split_ifs at h <;> (cases h; subst c; decide)

/-- What has no short escape and is no control character stands for itself. -/
theorem plain_of_shortEscape? {c : Char} (h : shortEscape? c = none) : c ≠ '\\' ∧ c ≠ '"' := by
  constructor <;>
  · rintro rfl
    revert h
    decide

/-- Two hexadecimal digits write any number that is that small. -/
theorem hexUnit?_hexDigit {n : Nat} (h : n < 0x20) :
    hexUnit? '0' '0' (hexDigit (n / 16)) (hexDigit (n % 16)) = some n := by
  revert n
  decide

/-- What a character is quoted as is read as its piece, whatever comes after it. -/
theorem pieces?_quoteChar_append (c : Char) (rest : List Char) :
    pieces? (quoteChar c ++ rest) = (pieces? rest).map (pieceOf c :: ·) := by
  unfold quoteChar
  split
  · -- a short escape
    rename_i letter short
    obtain ⟨named, letter_ne⟩ := shortEscaped?_of_shortEscape? short
    have piece : pieceOf c = .char c := by simp [pieceOf, short]
    simp only [List.cons_append, List.nil_append, piece]
    rw [pieces?, named]
    · cases pieces? rest <;> rfl
    · exact fun _ _ _ _ _ same => absurd same letter_ne
  · rename_i short
    split
    · -- a control character without one
      rename_i control
      have piece : pieceOf c = .unit c.toNat := by simp [pieceOf, short, control]
      simp only [List.cons_append, List.nil_append, pieces?, hexUnit?_hexDigit control, piece]
      cases pieces? rest <;> rfl
    · rename_i visible
      obtain ⟨noBackslash, noQuote⟩ := plain_of_shortEscape? short
      have piece : pieceOf c = .char c := by simp [pieceOf, visible]
      simp [pieces?, noBackslash, noQuote, visible, piece]

/-- A quoted text is read as the pieces of its characters. -/
theorem pieces?_quoteChars (cs : List Char) : pieces? (quoteChars cs) = some (cs.map pieceOf) := by
  induction cs with
  | nil => rfl
  | cons c cs ih =>
    show pieces? (quoteChar c ++ quoteChars cs) = _
    rw [pieces?_quoteChar_append, ih]
    rfl

/-- A code unit below the surrogates names a character by itself, whatever follows. -/
theorem joinPieces?_unit {n : Nat} (h : n < 0xD800) (rest : List Piece) :
    joinPieces? (.unit n :: rest) = (joinPieces? rest).map (Char.ofNat n :: ·) := by
  have high : isHighUnit n = false := by simp [isHighUnit, Nat.not_le.mpr h]
  have low : isLowUnit n = false := by
    have : ¬ 0xDC00 ≤ n := by omega
    simp [isLowUnit, this]
  -- A high unit would ask for what comes next, but this is none.
  rcases rest with _ | ⟨_ | next, rest⟩ <;> simp [joinPieces?, high, low]

/-- And these pieces, joined, are the characters again. -/
theorem joinPieces?_map_pieceOf (cs : List Char) : joinPieces? (cs.map pieceOf) = some cs := by
  induction cs with
  | nil => rfl
  | cons c cs ih =>
    rw [List.map_cons]
    by_cases unit : shortEscape? c = none ∧ c.toNat < 0x20
    · rw [show pieceOf c = .unit c.toNat from if_pos unit, joinPieces?_unit (by omega), ih]
      simp
    · rw [show pieceOf c = .char c from if_neg unit, joinPieces?, ih]
      rfl

/-- Every text can be quoted, and read back it is the text. -/
theorem unquote?_quote (s : String) : unquote? (quote s) = some s := by
  simp [unquote?, unquoteChars?, quote, pieces?_quoteChars, joinPieces?_map_pieceOf]

/-- No two texts are quoted alike. -/
theorem quote_inj {s t : String} (same : quote s = quote t) : s = t := by
  have read := unquote?_quote s
  rw [same, unquote?_quote] at read
  exact (Option.some.inj read).symm

/-- A quoted text may stand between the quotes of a string. -/
theorem isLiteral_quote (s : String) : isLiteral (quote s).toList = true := by
  simp [isLiteral, quote, pieces?_quoteChars]

end Linework.Json
