/-!
# `Linework.PictureFile.Fault`: why bytes are no picture

A file is no picture when nothing tells its format, when its format is not read
here, when it ends early or takes too much memory, or when it breaks a rule of its
format. Each format has its own rules, so each has its own type of faults.
`PictureFault.message` is the sentence for all of them.
-/

set_option autoImplicit false

namespace Linework

/-- The formats that the first bytes of a file tell apart. -/
inductive PictureFormat where
  | png
  | jpeg
  | gif
  | webp
  | tiff
  | dds
  | bmp
  | ico
  | hdr
  | avif
  | openExr
  | qoi
  | pnm
  | farbfeld
  deriving DecidableEq, Repr

namespace PictureFormat

/-- The format's name in sentences. -/
def name : PictureFormat → String
  | png => "Png"
  | jpeg => "Jpeg"
  | gif => "Gif"
  | webp => "WebP"
  | tiff => "Tiff"
  | dds => "Dds"
  | bmp => "Bmp"
  | ico => "Ico"
  | hdr => "Hdr"
  | avif => "Avif"
  | openExr => "OpenExr"
  | qoi => "Qoi"
  | pnm => "Pnm"
  | farbfeld => "Farbfeld"

end PictureFormat

/-- What a BMP file may hold that is not supported. -/
inductive BmpFeature where
  /-- A header of a length that no supported version of the format has. -/
  | header (size : Nat)
  | jpegInside
  | pngInside
  | inkColors
  /-- No pixels at all. -/
  | emptyArea (width height : Nat)
  deriving DecidableEq, Repr

namespace BmpFeature

/-- The feature in words. -/
def name : BmpFeature → String
  | header size => "Unknown bitmap header type (size=" ++ toString size ++ ")"
  | jpegInside => "JPEG compression"
  | pngInside => "PNG compression"
  | inkColors => "CMYK format"
  | emptyArea width height =>
    "Image dimensions (" ++ toString width ++ "x" ++ toString height ++
      " w/3 channels) are too large"

end BmpFeature

/-- The ways to store pixels in a BMP file whose numbers of bits are restricted. -/
inductive BmpStorage where
  | plain
  | runs8
  | runs4
  | masked
  deriving DecidableEq, Repr

namespace BmpStorage

/-- The way to store pixels in words. -/
def name : BmpStorage → String
  | plain => "RGB"
  | runs8 => "RLE8"
  | runs4 => "RLE4"
  | masked => "bitfields"

end BmpStorage

/-- The rules of the BMP format that a file can break. -/
inductive BmpFault where
  /-- The header is shorter than the shortest one there is. -/
  | shortHeader (size : Nat)
  | severalPlanes
  | bitCount (storage : BmpStorage) (bits : Nat)
  | negativeWidth (width : Int)
  | longSide (width height : Int)
  /-- The height is the one number whose opposite is out of range. -/
  | lowestHeight
  /-- Rows that run from the top are packed. -/
  | packedFromTop (method : Nat)
  | unknownPacking (method : Nat)
  | splitMask
  | wideMask
  | missingMask (bits : Nat)
  | largePalette (colors bits : Nat)
  | brokenRuns
  deriving DecidableEq, Repr

namespace BmpFault

/-- The fault in words. -/
def message : BmpFault → String
  | shortHeader size => "Bitmap header too small (" ++ toString size ++ " bytes)"
  | severalPlanes => "More than one plane"
  | bitCount storage bits =>
    "Invalid channel bit count for " ++ storage.name ++ ": " ++ toString bits
  | negativeWidth width => "Negative width (" ++ toString width ++ ")"
  | longSide width height =>
    "Image too large (one of (" ++ toString width ++ ", " ++ toString height ++
      ") > soft limit of 65535)"
  | lowestHeight => "Invalid height"
  | packedFromTop method => "Invalid image type " ++ toString method ++ " for top-down image."
  | unknownPacking method => "Unknown image compression type " ++ toString method
  | splitMask => "Non-contiguous bitfield mask"
  | wideMask => "Invalid bitfield mask"
  | missingMask bits => "Missing " ++ toString bits ++ "-bit bitfield mask"
  | largePalette colors bits =>
    "Palette size " ++ toString colors ++ " exceeds maximum size for BMP with bit count of " ++
      toString bits
  | brokenRuns => "Corrupt RLE data"

end BmpFault

/-- The rules of the GIF format that a file can break. -/
inductive GifFault where
  | unknownBlock
  | controlLength
  | noColorTable
  | codeSize
  | unknownCode
  /-- A frame without pixels. -/
  | emptyFrame
  /-- A frame with fewer pixels than its sides call for. -/
  | missingPixels
  deriving DecidableEq, Repr

namespace GifFault

/-- The fault in words. -/
def message : GifFault → String
  | unknownBlock => "unknown block type encountered"
  | controlLength => "control extension has wrong length"
  | noColorTable => "no color table available for current frame"
  | codeSize => "invalid minimal code size"
  | unknownCode => "invalid code in LZW stream"
  | emptyFrame => "odd-sized buffer"
  | missingPixels => "image truncated"

end GifFault

/-- The rules of the PNG format that a file can break. -/
inductive PngFault where
  /-- The file does not begin with a header chunk. -/
  | noHeader
  | emptyArea
  | bitDepth (value : Nat)
  | colorType (value : Nat)
  /-- A color type does not go with a number of bits. -/
  | colorDepth (color bits : Nat)
  | packing (value : Nat)
  | filterMethod (value : Nat)
  | interlacing (value : Nat)
  /-- The checksum of a chunk is not that of its bytes. -/
  | checksum
  | noPalette
  | noData
  /-- The packed rows cannot be unpacked. -/
  | brokenStream
  | fewData
  deriving DecidableEq, Repr

namespace PngFault

/-- The fault in words. -/
def message : PngFault → String
  | noHeader => "IHDR chunk missing"
  | emptyArea => "Invalid image dimensions"
  | bitDepth value => "Invalid bit depth " ++ toString value ++ "."
  | colorType value => "Invalid color type " ++ toString value ++ "."
  | colorDepth color bits =>
    "Invalid color/depth combination in header: " ++ toString color ++ "/" ++ toString bits
  | packing value => "Unknown compression method " ++ toString value ++ "."
  | filterMethod value => "Unknown filter method " ++ toString value ++ "."
  | interlacing value => "Unknown interlace method " ++ toString value ++ "."
  | checksum => "CRC error"
  | noPalette => "Missing palette of indexed image."
  | noData => "IDAT or fDAT chunk is missing."
  | brokenStream => "Corrupt deflate stream."
  | fewData => "IDAT or fDAT chunk does not have enough data for image."

end PngFault

/-- Why bytes are no picture. -/
inductive PictureFault where
  /-- The first bytes are those of no format. -/
  | unknownFormat
  /-- The format is told apart but not read. -/
  | unreadFormat (format : PictureFormat)
  /-- The file ends within a field. -/
  | cutShort
  /-- The file ends where more has to follow. -/
  | endsEarly
  | tooLarge
  /-- The file ends properly but holds no picture. -/
  | noPicture
  | bmpFeature (feature : BmpFeature)
  | bmp (fault : BmpFault)
  | gif (fault : GifFault)
  | png (fault : PngFault)
  deriving DecidableEq, Repr

namespace PictureFault

/-- A format's rule and the format, in a sentence. -/
def inFormat (format : PictureFormat) (fault : String) : String :=
  "Format error decoding " ++ format.name ++ ": " ++ fault

/-- The fault in words. -/
def message : PictureFault → String
  | unknownFormat => "The image format could not be determined"
  | unreadFormat format => "The image format " ++ format.name ++ " is not supported"
  | cutShort => "failed to fill whole buffer"
  | endsEarly => "unexpected end of file"
  | tooLarge => "Memory limit exceeded"
  | noPicture => "The end of the image has been reached"
  | bmpFeature feature =>
    "The decoder for " ++ PictureFormat.bmp.name ++ " does not support the format features " ++
      feature.name
  | bmp fault => inFormat .bmp fault.message
  | gif fault => inFormat .gif fault.message
  | png fault => inFormat .png fault.message

end PictureFault

end Linework
