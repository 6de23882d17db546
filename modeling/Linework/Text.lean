/-!
# `Linework.Text`: blank characters, trimming and cutting

A character is *blank* when Unicode lists it under `White_Space`. The table
below is that list, as inclusive ranges of code points. It is wider than the
ASCII blanks (the no-break space and the ideographic space are in it) and it
leaves out the zero-width characters, which print as nothing but separate
nothing either.

Trimming is defined on lists of characters, where it is `dropWhile` from either
end, and carried over to `String`.

`pieces sep s` cuts `s` at every `sep` and keeps the empty pieces, so there is
always one piece more than there are separators, and gluing the pieces with the
separator gives `s` back (`intercalate_pieces`).
-/

set_option autoImplicit false

namespace Linework.Text

/-! ## Blanks -/

/-- The code points of `White_Space`, as inclusive ranges in rising order. -/
def blankRanges : List (Nat × Nat) :=
  [(0x09, 0x0D), (0x20, 0x20), (0x85, 0x85), (0xA0, 0xA0), (0x1680, 0x1680),
   (0x2000, 0x200A), (0x2028, 0x2029), (0x202F, 0x202F), (0x205F, 0x205F),
   (0x3000, 0x3000)]

/-- Whether a character separates words without being part of one. -/
def isBlank (c : Char) : Bool :=
  blankRanges.any fun range => range.1 ≤ c.toNat && c.toNat ≤ range.2

/-- The characters from the first one that is not blank. -/
def dropBlanks (cs : List Char) : List Char :=
  cs.dropWhile isBlank

/-- The characters up to the last one that is not blank. -/
def dropTrailingBlanks (cs : List Char) : List Char :=
  (dropBlanks cs.reverse).reverse

/-- Both ends trimmed. -/
def strip (cs : List Char) : List Char :=
  dropTrailingBlanks (dropBlanks cs)

/-- A text without the blanks around it. -/
def trim (s : String) : String :=
  String.ofList (strip s.toList)

/-- A text without the blanks after it. -/
def trimEnd (s : String) : String :=
  String.ofList (dropTrailingBlanks s.toList)

/-- Trimming a text is trimming the list of its characters. -/
@[simp]
theorem toList_trim (s : String) : (trim s).toList = strip s.toList :=
  String.toList_ofList

/-- Trimming the end of a text is trimming the end of the list of its characters. -/
@[simp]
theorem toList_trimEnd (s : String) : (trimEnd s).toList = dropTrailingBlanks s.toList :=
  String.toList_ofList

/-! ## Cutting -/

/-- The texts between the occurrences of `sep`, empty ones included. -/
def pieces (sep : Char) (s : String) : List String :=
  (s.toList.splitOn sep).map String.ofList

/-- The lines of a text. A text that ends in a line break has an empty last line. -/
def lines (s : String) : List String :=
  pieces '\n' s

/-- A text cut at the first `sep`, which is in neither half. -/
def cutAtFirst? (sep : Char) (s : String) : Option (String × String) :=
  match s.toList.dropWhile (· != sep) with
  | [] => none
  | _ :: rest => some (String.ofList (s.toList.takeWhile (· != sep)), String.ofList rest)

/-- Whether `s` begins with `head`. -/
def hasHead (head s : String) : Bool :=
  head.toList.isPrefixOf s.toList

/-- What follows `head` in `s`, if `s` begins with it. -/
def afterHead? (head s : String) : Option String :=
  if hasHead head s then some (String.ofList (s.toList.drop head.length)) else none

/-- What precedes `tail` in `s`, if `s` ends in it. -/
def beforeTail? (tail s : String) : Option String :=
  if tail.toList.isSuffixOf s.toList then
    some (String.ofList (s.toList.take (s.length - tail.length)))
  else none

/-- Whether `word` stands anywhere in a list of characters. -/
def occursIn (word : List Char) : List Char → Bool
  | [] => word.isEmpty
  | c :: rest => word.isPrefixOf (c :: rest) || occursIn word rest

/-- A text has at least one piece. The empty text is its own only piece. -/
theorem pieces_ne_nil (sep : Char) (s : String) : pieces sep s ≠ [] := by
  simp [pieces]

/-- Gluing the pieces gives the text back. -/
theorem intercalate_pieces (sep : Char) (s : String) :
    (String.singleton sep).intercalate (pieces sep s) = s := by
  apply String.toList_inj.mp
  rw [String.toList_intercalate, pieces, List.map_map]
  simp

end Linework.Text
