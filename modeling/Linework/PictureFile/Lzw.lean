import Linework.PictureFile.Bytes

/-!
# `Linework.PictureFile.Lzw`: counting what packed codes stand for

Packed pixels are codes of a growing number of bits. A code below the *clear* code
stands for one pixel, the clear code forgets what was learnt, and the *end* code
after it ends the picture. Every other code stands for a row of pixels learnt on the
way: when a code follows another one, a new code is learnt for the row of the
earlier one and one pixel more. Only the lengths of the rows matter here.

`pixelCount` is the number of pixels that codes stand for.
-/

set_option autoImplicit false

namespace Linework.PictureFile.Lzw

/-- Codes from this one on are not learnt. -/
def codeLimit : Nat := 4096

/-- The most bits of a code. -/
def widthLimit : Nat := 12

/-- What has been learnt. -/
structure Table where
  /-- The bits of a code that stands for one pixel. -/
  depth : Nat
  /-- The lengths of the rows learnt, those of the latest codes first. -/
  learnt : List Nat
  /-- The bits of the next code. -/
  width : Nat
  /-- The length of the row that the last code stands for, if one came since the
  last clear code. -/
  last? : Option Nat
  deriving DecidableEq, Repr

namespace Table

/-- The table in which nothing has been learnt. -/
def fresh (depth : Nat) : Table := ⟨depth, [], depth + 1, none⟩

/-- The code that forgets. -/
def clearCode (t : Table) : Nat := 1 <<< t.depth

/-- The code that ends the picture. -/
def endCode (t : Table) : Nat := t.clearCode + 1

/-- The code that is learnt next. -/
def nextCode (t : Table) : Nat := t.clearCode + 2 + t.learnt.length

/-- The length of the row that a code stands for. A code that is just being learnt
may be used already. -/
def rowLength? (t : Table) (code : Nat) : Option Nat :=
  if code < t.clearCode then some 1
  else if code = t.nextCode then t.last?.map (· + 1)
  else if t.nextCode < code then none
  else t.learnt[t.nextCode - 1 - code]?

/-- The table with a code of more bits next, if the code learnt next needs them. -/
def widen (t : Table) : Table :=
  if t.nextCode = 1 <<< t.width ∧ t.width < widthLimit then { t with width := t.width + 1 }
  else t

/-- The table after a code that stands for a row of the given length. -/
def learn (t : Table) (length : Nat) : Table :=
  -- What is learnt is the earlier row and one pixel more. After the table is full nothing is.
  let learnt := match t.last? with
    | some last => if t.nextCode < codeLimit then (last + 1) :: t.learnt else t.learnt
    | none => t.learnt
  widen { t with learnt, last? := some length }

end Table

/-- Counts pixels until there are `needed`, the codes end, or a code stands for
nothing. Every code takes a bit at least, so as many steps as there are bits are
enough. -/
def count (needed : Nat) : Nat → Table → Nat → List Bool → Except GifFault Nat
  | 0, _, pixels, _ => .ok pixels
  | steps + 1, t, pixels, bs =>
    if needed ≤ pixels then .ok pixels
    else match takeNumber? t.width bs with
      | none => .ok pixels
      | some (code, rest) =>
        if code = t.clearCode then count needed steps (.fresh t.depth) pixels rest
        else if code = t.endCode then .ok pixels
        else match t.rowLength? code with
          | none => .error .unknownCode
          | some length => count needed steps (t.learn length) (pixels + length) rest

/-- The number of pixels that packed codes stand for, as far as they are needed. -/
def pixelCount (depth needed : Nat) (packed : List UInt8) : Except GifFault Nat :=
  let bs := bits packed
  count needed (bs.length + 1) (.fresh depth) 0 bs

end Linework.PictureFile.Lzw
