import Linework.PictureFile.Bmp
import Linework.PictureFile.Gif
import Linework.PictureFile.Png

/-!
# `Linework.PictureFile.Format`: the size of a picture, from its bytes

The format of a picture shows in its first bytes, whatever the file is called.
PNG, GIF and BMP files are read; a file of another format that is known by its first
bytes is refused with the format's name, and all other files are of no format.
-/

set_option autoImplicit false

namespace Linework.PictureFile

/-- The bytes that a file of a format begins with; some of them may be any byte. -/
structure Signature where
  format : PictureFormat
  pattern : List (Option UInt8)
  deriving DecidableEq, Repr

namespace Signature

/-- Whether bytes begin like the pattern. -/
def matchesPattern : List (Option UInt8) → List UInt8 → Bool
  | [], _ => true
  | _ :: _, [] => false
  | wanted :: more, b :: rest => wanted.all (· = b) && matchesPattern more rest

/-- A signature without gaps. -/
def ofBytes (format : PictureFormat) (bytes : List UInt8) : Signature :=
  ⟨format, bytes.map some⟩

/-- A signature that is a text. -/
def ofText (format : PictureFormat) (text : String) : Signature :=
  ofBytes format text.toUTF8.toList

/-- Bytes that a signature leaves open. -/
def gap (count : Nat) : List (Option UInt8) := List.replicate count none

/-- The bytes of a text in a pattern. -/
def word (text : String) : List (Option UInt8) := text.toUTF8.toList.map some

end Signature

open Signature in
/-- The signatures of all formats. No file begins with two of them. -/
def signatures : List Signature :=
  [ ofBytes .png [0x89, 0x50, 0x4E, 0x47, 0x0D, 0x0A, 0x1A, 0x0A],
    ofBytes .jpeg [0xFF, 0xD8, 0xFF],
    ofText .gif "GIF89a",
    ofText .gif "GIF87a",
    ⟨.webp, word "RIFF" ++ gap 4 ++ word "WEBP"⟩,
    ofBytes .tiff [0x4D, 0x4D, 0x00, 0x2A],
    ofBytes .tiff [0x49, 0x49, 0x2A, 0x00],
    ofText .dds "DDS ",
    ofText .bmp "BM",
    ofBytes .ico [0x00, 0x00, 0x01, 0x00],
    ofText .hdr "#?RADIANCE",
    ⟨.avif, [some 0x00, some 0x00] ++ gap 2 ++ word "ftypavif"⟩,
    ofBytes .openExr [0x76, 0x2F, 0x31, 0x01],
    ofText .qoi "qoif",
    ofText .pnm "P1",
    ofText .pnm "P2",
    ofText .pnm "P3",
    ofText .pnm "P4",
    ofText .pnm "P5",
    ofText .pnm "P6",
    ofText .pnm "P7",
    ofText .farbfeld "farbfeld" ]

/-- The format of a file. -/
def format? (data : List UInt8) : Option PictureFormat :=
  (signatures.find? fun s => Signature.matchesPattern s.pattern data).map (·.format)

/-- Width and height of a picture. -/
def size (data : List UInt8) : Except PictureFault (Nat × Nat) :=
  match format? data with
  | some .png => Png.size data
  | some .gif => Gif.size data
  | some .bmp => Bmp.size data
  | some format => .error (.unreadFormat format)
  | none => .error .unknownFormat

end Linework.PictureFile
