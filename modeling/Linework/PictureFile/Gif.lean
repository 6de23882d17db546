import Linework.PictureFile.Lzw

/-!
# `Linework.PictureFile.Gif`: GIF files

A GIF file has a screen, perhaps a table of colors, and blocks: extensions, which
mean nothing here, and frames. The first frame is the picture, on a screen of its
own size or not. The content of an extension and the packed pixels of a frame are
cut into pieces of up to 255 bytes, each with its length in front; a piece of
length 0 ends them.

`size` gives width and height of the screen of a file whose first frame is all
there.
-/

set_option autoImplicit false

namespace Linework.PictureFile.Gif

/-- The byte that begins a frame. -/
def frameMark : Nat := 0x2C

/-- The byte that begins an extension. -/
def extensionMark : Nat := 0x21

/-- The byte that ends the file. -/
def endMark : Nat := 0x3B

/-- The byte after the mark of an extension that controls a frame. -/
def controlLabel : Nat := 0xF9

/-- The length of the content of such an extension. -/
def controlLength : Nat := 4

/-- A number of one or two bytes. -/
def field (count : Nat) : Reading Nat :=
  Reading.little .endsEarly count

/-- The content of pieces, and the bytes after the last one. If the file ends before
it, there are none after it. -/
def pieces : Nat → List UInt8 → List UInt8 × Option (List UInt8)
  | 0, _ => ([], none)
  | _, [] => ([], none)
  | steps + 1, length :: left =>
    if length = 0 then ([], some left)
    else
      let content := left.take length.toNat
      -- What there is of a broken piece still counts as content.
      if content.length < length.toNat then (content, none)
      else
        let (more, rest?) := pieces steps (left.drop length.toNat)
        (content ++ more, rest?)

/-- The bytes of a table of colors whose size a byte of flags tells, if there is one. -/
def tableBytes (flags : Nat) : Nat :=
  if flags.testBit 7 then 3 * (1 <<< (flags % 8 + 1)) else 0

/-- What the file tells about its screen. -/
structure Screen where
  width : Nat
  height : Nat
  /-- Whether the file has a table of colors for all frames. -/
  hasColors : Bool
  deriving DecidableEq, Repr

namespace Screen

/-- The bytes of the screen's pixels. -/
def memory (s : Screen) : Nat := s.width * s.height * 4

end Screen

/-- Reads the beginning of the file. -/
def readScreen : Reading Screen := do
  let _signature ← Reading.bytes .endsEarly 6
  let width ← field 2
  let height ← field 2
  let flags ← field 1
  let _backgroundAndAspect ← field 2
  let _colors ← Reading.bytes .endsEarly (tableBytes flags)
  return ⟨width, height, flags.testBit 7⟩

/-- Reads an extension. -/
def readExtension : Reading Unit := do
  let label ← field 1
  let left ← get
  -- Only the extension that controls a frame has a fixed length. The others are skipped piece by
  -- piece.
  if label = controlLabel ∧ (left.head?.map UInt8.toNat).any (· ≠ controlLength) then
    throw (.gif .controlLength)
  match pieces (left.length + 1) left with
  | (_, some rest) => set rest
  | (_, none) => throw .endsEarly

/-- Reads blocks up to the first frame. -/
def findFrame : Nat → Reading Unit
  | 0 => throw .endsEarly
  | steps + 1 => do
    let mark ← field 1
    if mark = frameMark then return ()
    else if mark = extensionMark then
      readExtension
      findFrame steps
    else if mark = endMark then throw .noPicture
    else throw (.gif .unknownBlock)

/-- Refuses a frame that does not fit in memory beside the screen. A frame that
fills rows of the screen needs no memory of its own. -/
def requireMemory (screen : Screen) (left top width height : Nat) : Except PictureFault Unit :=
  if left = 0 ∧ width = screen.width ∧ top + height ≤ screen.height then .ok ()
  else if memoryLimit < screen.memory + width * height * 4 then .error .tooLarge
  else .ok ()

/-- The least bits that a pixel may have. -/
def leastDepth : Nat := 1

/-- The most bits that a pixel may have. -/
def mostDepth : Nat := 11

/-- Reads a frame. -/
def readFrame (screen : Screen) : Reading Unit := do
  let left ← field 2
  let top ← field 2
  let width ← field 2
  let height ← field 2
  let flags ← field 1
  let _colors ← Reading.bytes .endsEarly (tableBytes flags)
  let depth ← field 1
  if depth < leastDepth ∨ mostDepth < depth then throw (.gif .codeSize)
  if !screen.hasColors && !flags.testBit 7 then throw (.gif .noColorTable)
  requireMemory screen left top width height
  if width * height = 0 then throw (.gif .emptyFrame)
  -- Pixels may be missing because the pieces end or because the file does, and the faults differ.
  let stored ← get
  let (packed, rest?) := pieces (stored.length + 1) stored
  match Lzw.pixelCount depth (width * height) packed with
  | .error fault => throw (.gif fault)
  | .ok pixels =>
    if pixels < width * height then
      throw (if rest?.isSome then .gif .missingPixels else .endsEarly)

/-- Reads up to the end of the first frame. -/
def readPicture : Reading (Nat × Nat) := do
  let screen ← readScreen
  if memoryLimit < screen.memory then throw .tooLarge
  findFrame ((← get).length + 1)
  readFrame screen
  return (screen.width, screen.height)

/-- Width and height of a GIF file. -/
def size (data : List UInt8) : Except PictureFault (Nat × Nat) :=
  Prod.fst <$> readPicture.run data

end Linework.PictureFile.Gif
