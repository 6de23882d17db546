import Linework.PictureFile.Bytes

/-!
# `Linework.PictureFile.Bmp`: BMP files

A BMP file has a header in one of six lengths, which gives the sides and the way
the pixels are stored; for some of these ways masks or a palette follow. The pixels
stand at a place that the beginning of the file names, in rows of whole words or, if
they are packed, as runs. Rows usually run from the bottom; a negative height tells
that they run from the top.

`size` gives width and height of a file all of whose pixels are there.
-/

set_option autoImplicit false

namespace Linework.PictureFile.Bmp

/-- How the pixels of a file are stored. -/
inductive Pixels where
  /-- Numbers of colors in a palette. -/
  | indexed
  /-- Runs of such numbers, of 8 or 4 bits. -/
  | runs (storage : BmpStorage)
  /-- Colors. -/
  | direct
  /-- Colors whose parts stand where masks tell. -/
  | masked
  deriving DecidableEq, Repr

/-- What the header tells. -/
structure Header where
  width : Nat
  height : Nat
  /-- The bits of a pixel. -/
  bitCount : Nat
  pixels : Pixels
  /-- The colors of the palette; 0 stands for as many as there can be. -/
  colors : Nat
  deriving DecidableEq, Repr

/-- The length of the oldest header, whose sides are half words. -/
def coreHeader : Nat := 12

/-- The lengths of the later headers, whose sides are words. -/
def laterHeaders : List Nat := [40, 52, 56, 108, 124]

/-- The later headers with a mask for transparency. -/
def headersWithAlpha : List Nat := [56, 108, 124]

/-- The most pixels that a side may have. -/
def sideLimit : Nat := 65535

/-- A number of one, two or four bytes. -/
def field (count : Nat) : Reading Nat :=
  Reading.little .cutShort count

/-- Refuses a picture without pixels. -/
def requireArea (width height : Nat) : Reading Unit :=
  if width = 0 ∨ height = 0 then throw (.bmpFeature (.emptyArea width height)) else return ()

/-- Refuses all numbers of planes but one. -/
def requireOnePlane : Reading Unit := do
  if (← field 2) ≠ 1 then throw (.bmp .severalPlanes)

/-- The pixels of an oldest header. -/
def corePixels (bitCount : Nat) : Except BmpFault Pixels :=
  if bitCount ∈ [1, 4, 8] then .ok .indexed
  else if bitCount = 24 then .ok .direct
  else .error (.bitCount .plain bitCount)

/-- What the oldest header tells. -/
def coreFields : Reading Header := do
  let width ← field 2
  let height ← field 2
  requireArea width height
  requireOnePlane
  let bitCount ← field 2
  match corePixels bitCount with
  | .ok pixels => return ⟨width, height, bitCount, pixels, 0⟩
  | .error fault => throw (.bmp fault)

/-- The packing methods that rows from the top may have: none and masks. -/
def methodsFromTop : List Nat := [0, 3]

/-- The pixels of a later header, by packing method and number of bits. -/
def laterPixels (method bitCount : Nat) : Except PictureFault Pixels :=
  match method with
  | 0 =>
    if bitCount ∈ [1, 2, 4, 8] then .ok .indexed
    else if bitCount ∈ [16, 24, 32] then .ok .direct
    else .error (.bmp (.bitCount .plain bitCount))
  | 1 =>
    if bitCount = 8 then .ok (.runs .runs8) else .error (.bmp (.bitCount .runs8 bitCount))
  | 2 =>
    if bitCount = 4 then .ok (.runs .runs4) else .error (.bmp (.bitCount .runs4 bitCount))
  | 3 =>
    if bitCount ∈ [16, 32] then .ok .masked else .error (.bmp (.bitCount .masked bitCount))
  | 4 => .error (.bmpFeature .jpegInside)
  | 5 => .error (.bmpFeature .pngInside)
  | _ =>
    if method ∈ [11, 12, 13] then .error (.bmpFeature .inkColors)
    else .error (.bmp (.unknownPacking method))

/-- Refuses sides that no picture has. -/
def requireSides (width height : Int) : Reading Unit :=
  if width < 0 then throw (.bmp (.negativeWidth width))
  else if sideLimit < width ∨ sideLimit < height then throw (.bmp (.longSide width height))
  else if height = -0x80000000 then throw (.bmp .lowestHeight)
  else requireArea width.natAbs height.natAbs

/-- What a later header tells. -/
def laterFields : Reading Header := do
  let width := signedWord (← field 4)
  let height := signedWord (← field 4)
  requireSides width height
  requireOnePlane
  let bitCount ← field 2
  let method ← field 4
  if height < 0 ∧ method ∉ methodsFromTop then throw (.bmp (.packedFromTop method))
  let pixels ← laterPixels method bitCount
  let _dataSize ← field 4
  let _resolution ← field 8
  let colors ← field 4
  let _importantColors ← field 4
  return ⟨width.natAbs, height.natAbs, bitCount, pixels, colors⟩

/-- Refuses a mask whose bits are not together or go beyond the pixel. -/
def requireMask (bitCount mask : Nat) : Except BmpFault Unit :=
  if mask = 0 then .ok ()
  else
    -- The lowest bit, added, carries through bits that are together.
    let lowest := mask &&& (mask ^^^ (mask - 1))
    let carried := mask + lowest
    if carried &&& mask ≠ 0 then .error .splitMask
    else if 1 <<< bitCount ≤ mask then .error .wideMask
    else .ok ()

/-- Refuses masks that do not tell where the colors are. -/
def requireMasks (bitCount : Nat) (colors : List Nat) (alpha : Nat) : Except BmpFault Unit := do
  for mask in colors do requireMask bitCount mask
  requireMask bitCount alpha
  if 0 ∈ colors then .error (.missingMask bitCount)

/-- Whether pixels have a part for transparency, read off the masks where there are
masks. -/
def readMasks (headerSize : Nat) (header : Header) : Reading Bool := do
  if header.pixels ≠ .masked then return false
  let red ← field 4
  let green ← field 4
  let blue ← field 4
  let alpha ← if headerSize ∈ headersWithAlpha then field 4 else pure 0
  match requireMasks header.bitCount [red, green, blue] alpha with
  | .ok () => return alpha ≠ 0
  | .error fault => throw (.bmp fault)

/-- The bytes of a color in the palette. -/
def colorBytes (headerSize : Nat) : Nat :=
  if headerSize = coreHeader then 3 else 4

/-- Reads the palette, if there is one. -/
def readPalette (headerSize : Nat) (header : Header) : Reading Unit := do
  if header.pixels = .direct ∨ header.pixels = .masked then return ()
  let most := 1 <<< header.bitCount
  if most < header.colors then throw (.bmp (.largePalette header.colors header.bitCount))
  let count := if header.colors = 0 then most else header.colors
  let _palette ← Reading.bytes .cutShort (count * colorBytes headerSize)

/-- The bytes of a row, which has whole words. -/
def rowBytes (header : Header) : Nat :=
  (header.bitCount * header.width + 31) / 32 * 4

/-- What the packed pixels have come to: rows that follow this one, and the pixels
of this one. -/
structure Place where
  rowsLeft : Nat
  column : Nat
  deriving DecidableEq, Repr

namespace Place

/-- Pixels written on in the row, which is `width` wide. -/
def advance (width count : Nat) (p : Place) : Except PictureFault Place :=
  if p.column + count ≤ width then .ok { p with column := p.column + count }
  else .error (.bmp .brokenRuns)

/-- Rows and pixels left out. -/
def skip (width rows count : Nat) (p : Place) : Except PictureFault Place :=
  if rows ≤ p.rowsLeft then advance width count { p with rowsLeft := p.rowsLeft - rows }
  else .error (.bmp .brokenRuns)

end Place

/-- The bytes of pixels that are written one by one. They fill half words. -/
def literalBytes (storage : BmpStorage) (count : Nat) : Nat :=
  let packed := if storage = .runs4 then (count + 1) / 2 else count
  packed + packed % 2

/-- One instruction of packed pixels: a run of one color, or after a zero the end of
the row, the end of the picture, a place to go on from, or pixels one by one. Gives
the place and the bytes after it, or nothing at the end. -/
def packedStep (storage : BmpStorage) (width : Nat) (p : Place) :
    List UInt8 → Except PictureFault (Option (Place × List UInt8))
  | 0 :: 0 :: left =>
    if p.rowsLeft = 0 then .ok none else .ok (some (⟨p.rowsLeft - 1, 0⟩, left))
  | 0 :: 1 :: _ => .ok none
  | 0 :: 2 :: columns :: rows :: left => do
    return some (← p.skip width rows.toNat columns.toNat, left)
  | 0 :: count :: left => do
    let bytes := literalBytes storage count.toNat
    -- A two with a place after it was read above, so here the file has ended in the place.
    if count = 2 ∨ left.length < bytes then .error .cutShort
    return some (← p.advance width count.toNat, left.drop bytes)
  | count :: _ :: left => do return some (← p.advance width count.toNat, left)
  | _ => .error .cutShort

/-- Follows packed pixels to their end. Every instruction takes a byte at least, so
as many steps as there are bytes are enough. -/
def unpack (storage : BmpStorage) (width : Nat) :
    Nat → Place → List UInt8 → Except PictureFault Unit
  | 0, _, _ => .error .cutShort
  | steps + 1, p, left => do
    match ← packedStep storage width p left with
    | none => return ()
    | some (next, rest) => unpack storage width steps next rest

/-- Refuses pixels that are not all there. -/
def requirePixels (header : Header) (stored : List UInt8) : Except PictureFault Unit :=
  match header.pixels with
  -- Only pixels in runs have to be followed, as the length of others is known.
  | .runs storage =>
    unpack storage header.width (stored.length + 1) ⟨header.height - 1, 0⟩ stored
  | _ =>
    if stored.length < header.height * rowBytes header then .error .cutShort else .ok ()

/-- The length of the beginning, before the header. -/
def beginning : Nat := 14

/-- Reads up to the pixels. Gives the place of the pixels, what the header tells, and
whether pixels have a part for transparency. -/
def readHeader (data : List UInt8) : Reading (Nat × Header × Bool) := do
  let _signatureAndSize ← field 10
  let start ← field 4
  let size ← field 4
  if size < coreHeader then throw (.bmp (.shortHeader size))
  if size ≠ coreHeader ∧ size ∉ laterHeaders then throw (.bmpFeature (.header size))
  let header ← if size = coreHeader then coreFields else laterFields
  let alpha ← readMasks size header
  -- The header may be longer than what was read of it, and the palette comes after all of it.
  set (data.drop (beginning + size))
  readPalette size header
  return (start, header, alpha)

/-- Width and height of a BMP file. -/
def size (data : List UInt8) : Except PictureFault (Nat × Nat) := do
  let ((start, header, alpha), _) ← (readHeader data).run data
  let channels := if alpha then 4 else 3
  if memoryLimit < header.width * header.height * channels then .error .tooLarge
  requirePixels header (data.drop start)
  return (header.width, header.height)

end Linework.PictureFile.Bmp
