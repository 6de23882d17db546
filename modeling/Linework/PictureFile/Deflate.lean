import Linework.PictureFile.Bytes

/-!
# `Linework.PictureFile.Deflate`: unpacking deflated data

Deflated data is a row of bits in blocks. A block stores its bytes as they are, or as
symbols: a byte, the end of the block, or a piece of what was unpacked before, given
by its length and its distance. Symbols have codes of different lengths. A set of
codes is told by the lengths alone: codes of one length follow each other in the
order of their symbols, and shorter codes come first. It must leave no code unused,
unless there is a single code or none.

`unzip?` unpacks data with the two bytes of a zlib header in front and four bytes of a
checksum behind. The checksum is not looked at.
-/

set_option autoImplicit false

namespace Linework.PictureFile.Deflate

/-- A set of codes: how many codes there are of each length from 1 on, and the symbols
in the order of their codes. -/
structure CodeSet where
  counts : List Nat
  symbols : Array Nat
  deriving DecidableEq, Repr

namespace CodeSet

/-- The lengths that a code may have. -/
def sizes : List Nat := (List.range 15).map (· + 1)

/-- The symbols with codes of one length. -/
def symbolsOf (lengths : List Nat) (size : Nat) : List Nat :=
  lengths.zipIdx.filterMap fun (length, symbol) =>
    if length = size then some symbol else none

/-- The set in which the symbols 0, 1, … have codes of the given lengths. A symbol
with length 0 has none. -/
def ofLengths (lengths : List Nat) : CodeSet :=
  let groups := sizes.map (symbolsOf lengths)
  ⟨groups.map List.length, groups.flatten.toArray⟩

/-- How many codes are left for longer codes when there is room for `room` of the
length before, or nothing if the codes of a length outnumber the room for them. -/
def leftover? : Nat → List Nat → Option Nat
  | room, [] => some room
  | room, count :: more =>
    if count ≤ 2 * room then leftover? (2 * room - count) more else none

/-- Whether codes can be told apart, and none is unused. -/
def isUsable (codes : CodeSet) : Bool :=
  match leftover? 1 codes.counts with
  -- Room that is left over would be a code that stands for no symbol.
  | some room => room = 0 || codes.symbols.size ≤ 1
  | none => false

/-- The symbol whose code comes next. The bits so far are `code`; the first code of
their length is `first`, and the symbols of shorter codes are `index` many. -/
def next? (symbols : Array Nat) (code first index : Nat) :
    List Nat → List Bool → Option (Nat × List Bool)
  | count :: more, b :: rest =>
    let code := 2 * code + b.toNat
    let first := 2 * first
    if code < first + count then (symbols[index + (code - first)]?).map (·, rest)
    else next? symbols code (first + count) (index + count) more rest
  | _, _ => none

/-- The symbol whose code comes next, and the bits after it. -/
def symbol? (codes : CodeSet) (bs : List Bool) : Option (Nat × List Bool) :=
  next? codes.symbols 0 0 0 codes.counts bs

end CodeSet

/-- The symbol that ends a block. -/
def endSymbol : Nat := 256

/-- The least length and the bits that are added to it, for the symbols after the end
symbol. -/
def lengthClasses : Array (Nat × Nat) :=
  #[(3, 0), (4, 0), (5, 0), (6, 0), (7, 0), (8, 0), (9, 0), (10, 0),
    (11, 1), (13, 1), (15, 1), (17, 1), (19, 2), (23, 2), (27, 2), (31, 2),
    (35, 3), (43, 3), (51, 3), (59, 3), (67, 4), (83, 4), (99, 4), (115, 4),
    (131, 5), (163, 5), (195, 5), (227, 5), (258, 0)]

/-- The least distance and the bits that are added to it, for each distance symbol. -/
def distanceClasses : Array (Nat × Nat) :=
  #[(1, 0), (2, 0), (3, 0), (4, 0), (5, 1), (7, 1), (9, 2), (13, 2),
    (17, 3), (25, 3), (33, 4), (49, 4), (65, 5), (97, 5), (129, 6), (193, 6),
    (257, 7), (385, 7), (513, 8), (769, 8), (1025, 9), (1537, 9), (2049, 10), (3073, 10),
    (4097, 11), (6145, 11), (8193, 12), (12289, 12), (16385, 13), (24577, 13)]

/-- A number of a class, and the bits after it. -/
def classNumber? (classes : Array (Nat × Nat)) (index : Nat) (bs : List Bool) :
    Option (Nat × List Bool) := do
  let (least, extra) ← classes[index]?
  let (more, rest) ← takeNumber? extra bs
  return (least + more, rest)

/-- Bytes with a piece of themselves added byte by byte, from `distance` bytes back. -/
def repeatBack (distance : Nat) : Nat → ByteArray → ByteArray
  | 0, out => out
  | count + 1, out =>
    repeatBack distance count (out.push (out.data[out.size - distance]?.getD 0))

/-- Unpacks symbols up to the end of their block, onto what was unpacked before. Every
symbol takes a bit at least, so as many steps as there are bits are enough. -/
def symbols? (literals distances : CodeSet) :
    Nat → ByteArray → List Bool → Option (ByteArray × List Bool)
  | 0, _, _ => none
  | steps + 1, out, bs =>
    match literals.symbol? bs with
    | none => none
    | some (symbol, bs) =>
      if symbol < endSymbol then
        symbols? literals distances steps (out.push symbol.toUInt8) bs
      else if symbol = endSymbol then some (out, bs)
      else
        -- A piece of what was unpacked before. It may reach into what it adds itself, but not
        -- back beyond the first byte.
        let piece? := do
          let (length, bs) ← classNumber? lengthClasses (symbol - endSymbol - 1) bs
          let (index, bs) ← distances.symbol? bs
          let (distance, bs) ← classNumber? distanceClasses index bs
          if out.size < distance then none else some (length, distance, bs)
        match piece? with
        | none => none
        | some (length, distance, bs) =>
          symbols? literals distances steps (repeatBack distance length out) bs

/-- The lengths of the literals' codes in blocks without codes of their own. -/
def commonLiterals : List Nat :=
  List.replicate 144 8 ++ List.replicate 112 9 ++ List.replicate 24 7 ++ List.replicate 8 8

/-- The lengths of the distances' codes in such blocks. -/
def commonDistances : List Nat := List.replicate 32 5

/-- The order in which the lengths of the codes for lengths are told. -/
def lengthOrder : List Nat :=
  [16, 17, 18, 0, 8, 7, 9, 6, 10, 5, 11, 4, 12, 3, 13, 2, 14, 1, 15]

/-- `count` numbers of `width` bits. -/
def takeNumbers? (width : Nat) : Nat → List Bool → Option (List Nat × List Bool)
  | 0, bs => some ([], bs)
  | count + 1, bs => do
    let (n, bs) ← takeNumber? width bs
    let (ns, bs) ← takeNumbers? width count bs
    return (n :: ns, bs)

/-- What the next length symbol adds to the lengths so far, the latest first: a
length, the latest length again, or zeros. -/
def lengthRun? (codes : CodeSet) (latest : List Nat) (bs : List Bool) :
    Option (List Nat × List Bool) := do
  let (symbol, bs) ← codes.symbol? bs
  match symbol with
  -- The last three symbols stand for runs of lengths, and those before them for themselves.
  | 16 =>
    let again ← latest.head?
    let (more, bs) ← takeNumber? 2 bs
    return (List.replicate (3 + more) again, bs)
  | 17 =>
    let (more, bs) ← takeNumber? 3 bs
    return (List.replicate (3 + more) 0, bs)
  | 18 =>
    let (more, bs) ← takeNumber? 7 bs
    return (List.replicate (11 + more) 0, bs)
  | length => return ([length], bs)

/-- Reads lengths of codes until there are `needed`. The latest comes first. Every
symbol adds a length at least. -/
def codeLengths? (codes : CodeSet) (needed : Nat) :
    Nat → List Nat → List Bool → Option (List Nat × List Bool)
  | 0, _, _ => none
  | steps + 1, latest, bs =>
    if latest.length = needed then some (latest, bs)
    else if needed < latest.length then none
    else match lengthRun? codes latest bs with
      | none => none
      | some (run, bs) => codeLengths? codes needed steps (run ++ latest) bs

/-- The most literals whose codes a block tells. -/
def literalLimit : Nat := 286

/-- The most distances whose codes a block tells. -/
def distanceLimit : Nat := 30

/-- The codes that a block tells. -/
def ownCodes? (bs : List Bool) : Option (CodeSet × CodeSet × List Bool) := do
  let (literals, bs) ← takeNumber? 5 bs
  let (distances, bs) ← takeNumber? 5 bs
  let (told, bs) ← takeNumber? 4 bs
  let literals := literals + 257
  let distances := distances + 1
  -- The numbers have room for more symbols than there are.
  if literalLimit < literals ∨ distanceLimit < distances then none
  let (sizes, bs) ← takeNumbers? 3 (told + 4) bs
  let sizeOf := fun symbol =>
    ((lengthOrder.zip sizes).lookup symbol).getD 0
  let codes := CodeSet.ofLengths ((List.range 19).map sizeOf)
  if !codes.isUsable then none
  -- One row of lengths holds those of both sets, and a run may go from the one into the other.
  let needed := literals + distances
  let (latest, bs) ← codeLengths? codes needed (needed + 1) [] bs
  let lengths := latest.reverse
  let literalCodes := CodeSet.ofLengths (lengths.take literals)
  let distanceCodes := CodeSet.ofLengths (lengths.drop literals)
  if literalCodes.isUsable && distanceCodes.isUsable then
    some (literalCodes, distanceCodes, bs)
  else none

/-- The bits from the next whole byte on. -/
def align (bs : List Bool) : List Bool :=
  bs.drop (bs.length % 8)

/-- The bytes that a block stores as they are. Their number is told twice, the second
time with all bits turned. -/
def storedBytes? (out : ByteArray) (bs : List Bool) : Option (ByteArray × List Bool) := do
  let (count, bs) ← takeNumber? 16 (align bs)
  let (turned, bs) ← takeNumber? 16 bs
  if count + turned ≠ 0xFFFF then none
  let (stored, bs) ← takeNumbers? 8 count bs
  return (stored.foldl (fun out b => out.push b.toUInt8) out, bs)

/-- Unpacks one block. -/
def block? (out : ByteArray) (bs : List Bool) : Option (ByteArray × List Bool) := do
  let (kind, bs) ← takeNumber? 2 bs
  match kind with
  | 0 => storedBytes? out bs
  | 1 =>
    symbols? (.ofLengths commonLiterals) (.ofLengths commonDistances) (bs.length + 1) out bs
  | 2 =>
    let (literals, distances, bs) ← ownCodes? bs
    symbols? literals distances (bs.length + 1) out bs
  | _ => none

/-- Unpacks blocks up to the last one. Every block takes a bit at least. -/
def blocks? : Nat → ByteArray → List Bool → Option (ByteArray × List Bool)
  | 0, _, _ => none
  | steps + 1, out, bs =>
    match bs with
    | [] => none
    | isLast :: bs =>
      match block? out bs with
      | none => none
      | some (out, bs) => if isLast then some (out, bs) else blocks? steps out bs

/-- The bits of the checksum. -/
def checksumBits : Nat := 32

/-- Whether two bytes are a zlib header: deflated data, no preset dictionary, and a
multiple of 31 as a number. -/
def isHeader (method flags : Nat) : Bool :=
  method % 16 = 8 && method / 16 ≤ 7 && !flags.testBit 5 && (method * 256 + flags) % 31 = 0

/-- Unpacks data with a zlib header. -/
def unzip? : List UInt8 → Option ByteArray
  | method :: flags :: packed => do
    if !isHeader method.toNat flags.toNat then none
    let bs := bits packed
    let (out, rest) ← blocks? (bs.length + 1) .empty bs
    -- The checksum has to be there, whatever it says.
    if (align rest).length < checksumBits then none
    return out
  | _ => none

end Linework.PictureFile.Deflate
