import Linework.PictureFile.Fault

/-!
# `Linework.PictureFile.Bytes`: taking a file apart

`Reading` reads a file from front to back: it carries the bytes that are left and
stops at the first fault. Numbers stand in the file with the least or the most
significant byte first. Packed data is a row of bits; `bits` gives them in the order
of the bytes, the low bit of each byte first.
-/

set_option autoImplicit false

namespace Linework.PictureFile

/-- The number that bytes write, the most significant first. -/
def bigEndian (bytes : List UInt8) : Nat :=
  bytes.foldl (fun acc b => acc * 256 + b.toNat) 0

/-- The number that bytes write, the least significant first. -/
def littleEndian (bytes : List UInt8) : Nat :=
  bigEndian bytes.reverse

/-- The number that four bytes write in two's complement. -/
def signedWord (n : Nat) : Int :=
  if n < 0x80000000 then n else n - 0x100000000

/-- The bits of a byte, the low one first. -/
def bitsOfByte (b : UInt8) : List Bool :=
  (List.range 8).map fun i => b.toNat.testBit i

/-- The bits of bytes, the low one of each byte first. -/
def bits (bytes : List UInt8) : List Bool :=
  bytes.flatMap bitsOfByte

/-- The number that bits write, the low one first. -/
def numberOfBits (bs : List Bool) : Nat :=
  bs.foldr (fun b acc => 2 * acc + b.toNat) 0

/-- A number of `count` bits and the bits after it. -/
def takeNumber? (count : Nat) (bs : List Bool) : Option (Nat × List Bool) :=
  let field := bs.take count
  if field.length = count then some (numberOfBits field, bs.drop count) else none

/-- What reads a file from front to back. -/
abbrev Reading := StateT (List UInt8) (Except PictureFault)

namespace Reading

/-- The next `count` bytes. If there are fewer, the reading stops with `short`. -/
def bytes (short : PictureFault) (count : Nat) : Reading (List UInt8) := fun left =>
  let field := left.take count
  if field.length = count then .ok (field, left.drop count) else .error short

/-- The next number, the least significant byte first. -/
def little (short : PictureFault) (count : Nat) : Reading Nat :=
  littleEndian <$> bytes short count

/-- The next number, the most significant byte first. -/
def big (short : PictureFault) (count : Nat) : Reading Nat :=
  bigEndian <$> bytes short count

end Reading

/-- The most bytes that an unpacked picture may take. -/
def memoryLimit : Nat := 512 * 1024 * 1024

end Linework.PictureFile
