import Linework.Text
import Mathlib.Data.List.TakeWhile

/-!
# `Linework.Proofs.Text.Cutting`: texts that are trimmed and cut

Trimming takes away the blanks at both ends and stops at the first character from either side
that is not blank (`strip_between`). So it undoes what blanks around a text add to it.

Cutting at a character and gluing with it undo each other. `intercalate_pieces` is the one
direction and holds of every text; `pieces_intercalate` is the other and takes pieces in which
the character does not stand, as the pieces of a text always are (`not_mem_of_mem_pieces`).
-/

set_option autoImplicit false

namespace Linework.Text

/-! ## Trimming -/

/-- Blanks in front of a text are dropped, and with them nothing else: what comes after decides
how far the dropping goes. -/
theorem dropBlanks_append {front : List Char} (blank : ∀ c ∈ front, isBlank c = true)
    (cs : List Char) : dropBlanks (front ++ cs) = dropBlanks cs :=
  List.dropWhile_append_of_pos blank

/-- A text that does not begin with a blank is left alone. The empty text has no head, so it falls
under this too. -/
theorem dropBlanks_of_head {cs : List Char} (first : ∀ c ∈ cs.head?, isBlank c = false) :
    dropBlanks cs = cs := by
  cases cs with
  | nil => rfl
  | cons c cs =>
    have kept : isBlank c = false := first c rfl
    rw [dropBlanks, List.dropWhile_cons, if_neg (by simp [kept])]

/-- Blanks around a text that begins and ends with what is not blank are all that is trimmed. -/
theorem strip_between {front core back : List Char} (before : ∀ c ∈ front, isBlank c = true)
    (after : ∀ c ∈ back, isBlank c = true) (first : ∀ c ∈ core.head?, isBlank c = false)
    (last : ∀ c ∈ core.getLast?, isBlank c = false) : strip (front ++ (core ++ back)) = core := by
  have ends : ∀ c ∈ core.reverse.head?, isBlank c = false := by
    rw [List.head?_reverse]
    exact last
  -- A core without characters leaves the blanks behind it, and they go in the second step.
  have fromBack : dropTrailingBlanks (core ++ back) = core := by
    rw [dropTrailingBlanks, List.reverse_append,
      dropBlanks_append fun c among => after c (List.mem_reverse.mp among), dropBlanks_of_head ends,
      List.reverse_reverse]
  -- The front goes first. What is left begins with the core, if there is one, and with the blanks
  -- behind it otherwise.
  rw [strip, dropBlanks_append before]
  cases core with
  | nil =>
    have nothing : dropBlanks back = [] := by
      rw [dropBlanks, List.dropWhile_eq_nil_iff]
      exact after
    rw [List.nil_append, nothing]
    rfl
  | cons c cs =>
    have whole : dropBlanks (c :: cs ++ back) = c :: cs ++ back := dropBlanks_of_head first
    rw [whole, fromBack]

/-- Characters of which none is blank are not trimmed: there is nothing before and after them. -/
theorem strip_of_no_blank {cs : List Char} (h : ∀ c ∈ cs, isBlank c = false) : strip cs = cs := by
  have stripped : strip ([] ++ (cs ++ [])) = cs := strip_between (by simp) (by simp)
    (fun c first => h c (List.mem_of_head? first)) fun c last => h c (List.mem_of_getLast? last)
  simpa using stripped

/-- The same of a text: a word without blanks is trimmed to itself. -/
theorem trim_of_no_blank {s : String} (h : ∀ c ∈ s.toList, isBlank c = false) : trim s = s := by
  rw [trim, strip_of_no_blank h, String.ofList_toList]

/-- There is nothing to trim from a text that begins and ends with what is not blank. -/
theorem strip_of_ends {c d : Char} (first : isBlank c = false) (last : isBlank d = false)
    (cs : List Char) : strip (c :: (cs ++ [d])) = c :: (cs ++ [d]) := by
  have stripped : strip ([] ++ (c :: (cs ++ [d]) ++ [])) = c :: (cs ++ [d]) :=
    strip_between (by simp) (by simp) (by simp [first]) (by simp [List.getLast?_cons, last])
  simpa using stripped

/-- Whether all characters are blank can be asked after the first blanks are dropped, for those
are. -/
theorem forall_mem_dropBlanks_iff {cs : List Char} :
    (∀ c ∈ dropBlanks cs, isBlank c = true) ↔ ∀ c ∈ cs, isBlank c = true := by
  induction cs with
  | nil => rfl
  | cons c cs ih =>
    -- The induction is on the characters. At the first one that is not blank both sides speak of
    -- the same list.
    rw [dropBlanks, List.dropWhile_cons]
    split
    · rename_i blank
      rw [← dropBlanks, ih, List.forall_mem_cons, and_iff_right blank]
    · rfl

/-- Nothing but blanks is trimmed to nothing. -/
theorem strip_eq_nil_iff {cs : List Char} : strip cs = [] ↔ ∀ c ∈ cs, isBlank c = true := by
  rw [← forall_mem_dropBlanks_iff, strip, dropTrailingBlanks, List.reverse_eq_nil_iff]
  generalize dropBlanks cs = left
  rw [dropBlanks, List.dropWhile_eq_nil_iff]
  simp only [List.mem_reverse]

/-- A text is trimmed to nothing if and only if it has nothing but blanks. -/
theorem trim_eq_empty_iff {s : String} : trim s = "" ↔ ∀ c ∈ s.toList, isBlank c = true := by
  rw [← strip_eq_nil_iff, ← toList_trim, String.toList_eq_nil_iff]

/-! ## Cutting -/

section Pieces

variable {sep : Char}

/-- A text that does not have the separator in it is one piece. -/
theorem pieces_of_not_mem {s : String} (h : sep ∉ s.toList) : pieces sep s = [s] := by
  simp [pieces, List.splitOn_eq_singleton h]

/-- A text with the separator in it is cut there, whatever stands on either side, and the sides
are cut on their own. -/
theorem pieces_append (sep : Char) (a b : String) :
    pieces sep (a ++ String.singleton sep ++ b) = pieces sep a ++ pieces sep b := by
  have joined : (a ++ String.singleton sep ++ b).toList = a.toList ++ sep :: b.toList := by simp
  rw [pieces, joined, List.splitOn_append_cons_self, List.map_append]
  rfl

/-- No piece has the separator in it. The induction is on the characters, for a piece is made of
neighbours. -/
theorem not_mem_of_mem_splitOn {cs : List Char} : ∀ piece ∈ cs.splitOn sep, sep ∉ piece := by
  induction cs with
  | nil => simp
  | cons c cs ih =>
    rw [List.splitOn_cons_eq_if_modifyHead]
    split
    · simpa using ih
    · rename_i other
      -- The character goes to the first piece, and the others are as they were.
      obtain ⟨first, rest, cut⟩ := List.exists_cons_of_ne_nil (List.splitOn_ne_nil sep cs)
      rw [cut] at ih ⊢
      obtain ⟨ihFirst, ihRest⟩ := List.forall_mem_cons.mp ih
      have ne : sep ≠ c := fun same => other (by simp [same])
      rw [List.modifyHead_cons, List.forall_mem_cons]
      exact ⟨List.not_mem_cons_of_ne_of_not_mem ne ihFirst, ihRest⟩

/-- No piece of a text has the character in it that the text was cut at. -/
theorem not_mem_of_mem_pieces {s piece : String} (h : piece ∈ pieces sep s) :
    sep ∉ piece.toList := by
  obtain ⟨cs, cut, rfl⟩ := List.mem_map.mp h
  simpa using not_mem_of_mem_splitOn cs cut

/-- Pieces that are glued together can be had back. -/
theorem pieces_intercalate {ps : List String} (ne : ps ≠ []) (h : ∀ p ∈ ps, sep ∉ p.toList) :
    pieces sep ((String.singleton sep).intercalate ps) = ps := by
  have cut : ps.map String.toList ≠ [] := by simpa using ne
  rw [pieces, String.toList_intercalate, String.toList_singleton,
    List.splitOn_intercalate sep (by simpa using h) cut, List.map_map]
  simp

/-- A text with the separator in it is at least two pieces. -/
theorem two_le_length_pieces {s : String} (among : sep ∈ s.toList) : 2 ≤ (pieces sep s).length := by
  obtain ⟨before, after, split⟩ := List.append_of_mem among
  have joined : s = String.ofList before ++ String.singleton sep ++ String.ofList after := by
    apply String.toList_inj.mp
    simp [split]
  have one := List.length_pos_iff.mpr (pieces_ne_nil sep (String.ofList before))
  have other := List.length_pos_iff.mpr (pieces_ne_nil sep (String.ofList after))
  rw [joined, pieces_append, List.length_append]
  omega

end Pieces

/-! ## Lines -/

/-- The lines of two texts with a line break between them are the lines of the one and then those
of the other. -/
theorem lines_append (a b : String) : lines (a ++ "\n" ++ b) = lines a ++ lines b :=
  pieces_append '\n' a b

/-- The first `n` lines of a text, as a text. -/
def firstLines (n : Nat) (s : String) : String := "\n".intercalate ((lines s).take n)

/-- The first `n` lines, read as a text of their own, have just these lines. There has to be one:
no lines at all would read as one empty line. -/
theorem lines_firstLines {n : Nat} (some : 0 < n) (s : String) :
    lines (firstLines n s) = (lines s).take n := by
  refine pieces_intercalate ?_ fun line among => ?_
  · rw [ne_eq, List.take_eq_nil_iff, not_or]
    exact ⟨Nat.ne_of_gt some, pieces_ne_nil '\n' s⟩
  · exact not_mem_of_mem_pieces (List.mem_of_mem_take among)

end Linework.Text
