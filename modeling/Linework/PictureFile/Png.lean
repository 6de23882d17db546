import Linework.PictureFile.Deflate

/-!
# `Linework.PictureFile.Png`: PNG files

A PNG file is a signature and a row of chunks, each with its length, its name, its
content and a checksum. The first chunk is the header; the content of the data chunks,
joined, is the packed pixels. An interlaced picture is stored in seven passes of every
so many pixels and rows. Each row of a pass has a byte in front that names its filter.
Chunks whose name begins with a small letter can be left out, so a wrong checksum of
theirs does no harm.

`size` gives width and height of a file all of whose pixels are there.
-/

set_option autoImplicit false

namespace Linework.PictureFile.Png

/-- A chunk of a file. -/
structure Chunk where
  name : List UInt8
  content : List UInt8
  deriving DecidableEq, Repr

/-- The name of the header chunk. -/
def headerName : List UInt8 := "IHDR".toUTF8.toList

/-- The name of the chunk with the palette. -/
def paletteName : List UInt8 := "PLTE".toUTF8.toList

/-- The name of the chunk that makes colors transparent. -/
def transparencyName : List UInt8 := "tRNS".toUTF8.toList

/-- The name of the chunks with packed pixels. -/
def dataName : List UInt8 := "IDAT".toUTF8.toList

/-- The name of the last chunk. -/
def endName : List UInt8 := "IEND".toUTF8.toList

namespace Chunk

/-- Whether the chunk has to be understood: its name begins with a capital letter. -/
def isCritical (c : Chunk) : Bool :=
  c.name.head?.any fun b => !b.toNat.testBit 5

end Chunk

/-- One bit of a checksum. -/
def checksumBit (sum : UInt32) : UInt32 :=
  if sum &&& 1 = 1 then (sum >>> 1) ^^^ 0xEDB88320 else sum >>> 1

/-- One byte of a checksum. -/
def checksumByte (sum : UInt32) (b : UInt8) : UInt32 :=
  (List.range 8).foldl (fun sum _ => checksumBit sum) (sum ^^^ b.toUInt32)

/-- The checksum of bytes: the remainder of a division of polynomials with bits as
coefficients, with all bits turned at the beginning and at the end. -/
def checksum (bytes : List UInt8) : Nat :=
  (bytes.foldl checksumByte 0xFFFFFFFF ^^^ 0xFFFFFFFF).toNat

/-- A number of one or four bytes. -/
def field (count : Nat) : Reading Nat :=
  Reading.big .endsEarly count

/-- Reads a chunk. -/
def readChunk : Reading Chunk := do
  let length ← field 4
  let name ← Reading.bytes .endsEarly 4
  let content ← Reading.bytes .endsEarly length
  let sum ← field 4
  let chunk : Chunk := ⟨name, content⟩
  -- The checksum is that of name and content, without the length.
  if chunk.isCritical && sum ≠ checksum (name ++ content) then throw (.png .checksum)
  return chunk

/-- What the header tells. -/
structure Header where
  width : Nat
  height : Nat
  /-- The bits of a part of a color. -/
  bitDepth : Nat
  colorType : Nat
  interlaced : Bool
  deriving DecidableEq, Repr

/-- The color type of gray pixels. -/
def gray : Nat := 0

/-- The color type of colored pixels. -/
def color : Nat := 2

/-- The color type of pixels that are numbers of colors in a palette. -/
def indexed : Nat := 3

/-- The color type of gray pixels with transparency. -/
def grayAlpha : Nat := 4

/-- The color type of colored pixels with transparency. -/
def colorAlpha : Nat := 6

/-- The numbers of bits that go with a color type. -/
def depths (colorType : Nat) : List Nat :=
  if colorType = gray then [1, 2, 4, 8, 16]
  else if colorType = indexed then [1, 2, 4, 8]
  else [8, 16]

/-- The parts of a color as stored. -/
def channels (colorType : Nat) : Nat :=
  if colorType = color then 3
  else if colorType = grayAlpha then 2
  else if colorType = colorAlpha then 4
  else 1

namespace Header

/-- The parts of a color in memory: a palette's colors take the place of their
numbers, and transparency of a color is one part more. -/
def memoryChannels (h : Header) (transparency : Bool) : Nat :=
  let own := if h.colorType = indexed then 3 else channels h.colorType
  if transparency && (h.colorType = gray || h.colorType = color || h.colorType = indexed) then
    own + 1
  else own

/-- The bytes of the unpacked picture. -/
def memory (h : Header) (transparency : Bool) : Nat :=
  h.width * h.height * h.memoryChannels transparency * (if h.bitDepth = 16 then 2 else 1)

/-- The bytes of a row of `width` pixels, without the byte in front. -/
def rowBytes (h : Header) (width : Nat) : Nat :=
  (width * channels h.colorType * h.bitDepth + 7) / 8

end Header

/-- The header, from the content of its chunk. -/
def readHeader : Reading Header := do
  let width ← field 4
  let height ← field 4
  let bitDepth ← field 1
  let colorType ← field 1
  let packing ← field 1
  let filterMethod ← field 1
  let interlacing ← field 1
  -- The order of the checks decides which fault a broken header has.
  if width = 0 ∨ height = 0 then throw (.png .emptyArea)
  if bitDepth ∉ depths gray then throw (.png (.bitDepth bitDepth))
  if colorType ∉ [gray, color, indexed, grayAlpha, colorAlpha] then
    throw (.png (.colorType colorType))
  if bitDepth ∉ depths colorType then throw (.png (.colorDepth colorType bitDepth))
  if packing ≠ 0 then throw (.png (.packing packing))
  if filterMethod ≠ 0 then throw (.png (.filterMethod filterMethod))
  if 1 < interlacing then throw (.png (.interlacing interlacing))
  return ⟨width, height, bitDepth, colorType, interlacing = 1⟩

/-- The passes of an interlaced picture: first column and row, and the steps to the
next ones. -/
def passes : List (Nat × Nat × Nat × Nat) :=
  [(0, 0, 8, 8), (4, 0, 8, 8), (0, 4, 4, 8), (2, 0, 4, 4), (0, 2, 2, 4), (1, 0, 2, 2), (0, 1, 1, 2)]

/-- How many of the numbers below `count` come up, from `first` on in steps. -/
def stepCount (count first step : Nat) : Nat :=
  (count + step - 1 - first) / step

/-- Width and height of the parts that a picture is stored in. -/
def parts (h : Header) : List (Nat × Nat) :=
  if h.interlaced then
    (passes.map fun (x, y, dx, dy) => (stepCount h.width x dx, stepCount h.height y dy)).filter
      fun (width, height) => width ≠ 0 && height ≠ 0
  else [(h.width, h.height)]

/-- The highest filter there is. -/
def lastFilter : Nat := 4

/-- Checks rows of `length` bytes from a place on; gives the place after them. -/
def checkRows (pixels : ByteArray) (length : Nat) : Nat → Nat → Except PngFault Nat
  | 0, place => .ok place
  | rows + 1, place =>
    if pixels.size < place + 1 + length then .error .fewData
    else
      let filter := (pixels.data[place]?.getD 0).toNat
      if lastFilter < filter then .error (.filterMethod filter)
      else checkRows pixels length rows (place + 1 + length)

/-- Refuses pixels that are not all there. -/
def requirePixels (h : Header) (pixels : ByteArray) : Except PngFault Unit := do
  let _end ← (parts h).foldlM (fun place (width, height) =>
    checkRows pixels (h.rowBytes width) height place) 0

/-- What the chunks before the data tell. -/
structure Tables where
  palette : Bool
  transparency : Bool
  deriving DecidableEq, Repr

/-- Reads chunks up to the first data chunk, whose content is given too. -/
def findData : Nat → Tables → Reading (Tables × List UInt8)
  | 0, _ => throw .endsEarly
  | limit + 1, tables => do
    let chunk ← readChunk
    if chunk.name = dataName then return (tables, chunk.content)
    else if chunk.name = endName then throw (.png .noData)
    else if chunk.name = paletteName then findData limit { tables with palette := true }
    else if chunk.name = transparencyName then
      findData limit { tables with transparency := true }
    else findData limit tables

/-- Reads the data chunks that follow, up to the name of another chunk. -/
def moreData : Nat → Reading (List UInt8)
  | 0 => throw .endsEarly
  | limit + 1 => do
    let here ← get
    let _length ← field 4
    let name ← Reading.bytes .endsEarly 4
    -- The content of another chunk is not looked at, so the file may be broken off in it.
    if name ≠ dataName then return []
    set here
    let chunk ← readChunk
    return chunk.content ++ (← moreData limit)

/-- Reads the header chunk. -/
def readHeaderChunk : Reading Header := do
  let chunk ← readChunk
  if chunk.name ≠ headerName then throw (.png .noHeader)
  match readHeader.run chunk.content with
  | .ok (header, _) => return header
  | .error fault => throw fault

/-- Reads a whole file. -/
def readPicture : Reading (Nat × Nat) := do
  let _signature ← Reading.bytes .endsEarly 8
  let header ← readHeaderChunk
  let limit := (← get).length + 1
  let (tables, first) ← findData limit ⟨false, false⟩
  -- Only the chunks before the first data tell of a palette and of transparency.
  if header.colorType = indexed && !tables.palette then throw (.png .noPalette)
  if memoryLimit < header.memory tables.transparency then throw .tooLarge
  let packed := first ++ (← moreData limit)
  match Deflate.unzip? packed with
  | none => throw (.png .brokenStream)
  | some pixels =>
    match requirePixels header pixels with
    | .ok () => return (header.width, header.height)
    | .error fault => throw (.png fault)

/-- Width and height of a PNG file. -/
def size (data : List UInt8) : Except PictureFault (Nat × Nat) :=
  Prod.fst <$> readPicture.run data

end Linework.PictureFile.Png
