import CardArchive.Gzip.Huffman

/-!
# Deflate

Compressed data is a sequence of blocks, each stored as it is or written with prefix codes, in which
a symbol stands for a byte, for the end of the block, or for the repetition of bytes that came
before.
-/

namespace CardArchive.Gzip

/-! ## Codes -/

/-- The numbers of bits of the fixed code for bytes and lengths. -/
def fixedLengths : List Nat :=
  List.replicate 144 8 ++ List.replicate 112 9 ++ List.replicate 24 7 ++ List.replicate 8 8

/-- The numbers of bits of the fixed code for distances. -/
def fixedDistances : List Nat := List.replicate 32 5

/-- The symbols for numbers of bits, in the order in which their own numbers of bits are given. -/
def lengthOrder : List Nat := [16, 17, 18, 0, 8, 7, 9, 6, 10, 5, 11, 4, 12, 3, 13, 2, 14, 1, 15]

/-- The least length of each length symbol and the extra bits behind it. -/
def lengthTable : List (Nat × Nat) :=
  [(3, 0), (4, 0), (5, 0), (6, 0), (7, 0), (8, 0), (9, 0), (10, 0), (11, 1), (13, 1), (15, 1),
    (17, 1), (19, 2), (23, 2), (27, 2), (31, 2), (35, 3), (43, 3), (51, 3), (59, 3), (67, 4),
    (83, 4), (99, 4), (115, 4), (131, 5), (163, 5), (195, 5), (227, 5), (258, 0)]

/-- The least distance of each distance symbol and the extra bits behind it. -/
def distanceTable : List (Nat × Nat) :=
  [(1, 0), (2, 0), (3, 0), (4, 0), (5, 1), (7, 1), (9, 2), (13, 2), (17, 3), (25, 3), (33, 4),
    (49, 4), (65, 5), (97, 5), (129, 6), (193, 6), (257, 7), (385, 7), (513, 8), (769, 8),
    (1025, 9), (1537, 9), (2049, 10), (3073, 10), (4097, 11), (6145, 11), (8193, 12), (12289, 12),
    (16385, 13), (24577, 13)]

/-- Reads a number of numbers, each three bits wide. -/
def readWidths? : Nat → BitInput → Option (List Nat × BitInput)
  | 0, input => some ([], input)
  | n + 1, input => do
    let (width, input) ← input.number? 3
    let (widths, input) ← readWidths? n input
    return (width :: widths, input)

/-- Reads the numbers of bits of `total` symbols, after those in `seen`, last first. A number may be
repeated, which does not go beyond the total. -/
def readLengths? (code : PrefixCode) (total : Nat) :
    Nat → List Nat → BitInput → Option (List Nat × BitInput)
  | 0, _, _ => none
  | fuel + 1, seen, input =>
    if total < seen.length then none
    else if seen.length = total then some (seen.reverse, input)
    else do
      let (symbol, input) ← code.read? input
      if symbol < 16 then readLengths? code total fuel (symbol :: seen) input
      else
        let (value, least, width) ←
          if symbol = 16 then (seen.head?).map fun last => (last, 3, 2)
          else if symbol = 17 then some (0, 3, 3)
          else some (0, 11, 7)
        let (more, input) ← input.number? width
        readLengths? code total fuel (List.replicate (least + more) value ++ seen) input

/-- Reads the codes of a block: the code for bytes and lengths, then the code for distances. -/
def readCodes? (input : BitInput) : Option (PrefixCode × PrefixCode × BitInput) := do
  let (lengths, input) ← input.number? 5
  let (distances, input) ← input.number? 5
  let (widths, input) ← input.number? 4
  let lengths := lengths + 257
  let distances := distances + 1
  if 286 < lengths || 30 < distances then none
  let (widths, input) ← readWidths? (widths + 4) input
  let given := lengthOrder.zip widths
  let code ← PrefixCode.ofLengths? ((List.range 19).map fun symbol => (given.lookup symbol).getD 0)
  let total := lengths + distances
  let (all, input) ← readLengths? code total (total + 1) [] input
  let first ← PrefixCode.ofLengths? (all.take lengths)
  let second ← PrefixCode.ofLengths? (all.drop lengths)
  return (first, second, input)

/-! ## Blocks -/

/-- Repeats bytes from some distance back, one after the other, so that the repetition may reach
into itself. -/
def repeatBytes? (distance : Nat) : Nat → Array UInt8 → Option (Array UInt8)
  | 0, out => some out
  | n + 1, out =>
    if distance ≤ out.size then
      match out[out.size - distance]? with
      | some b => repeatBytes? distance n (out.push b)
      | none => none
    else none

/-- A number given by a symbol and the extra bits behind it. -/
def readExtended? (table : List (Nat × Nat)) (symbol : Nat) (input : BitInput) :
    Option (Nat × BitInput) := do
  let (least, width) ← table[symbol]?
  let (more, input) ← input.number? width
  return (least + more, input)

/-- Reads a block that is written with codes. Every symbol takes a bit at least, so that the bits
left are fuel enough. -/
def readSymbols? (code distances : PrefixCode) :
    Nat → Array UInt8 → BitInput → Option (Array UInt8 × BitInput)
  | 0, _, _ => none
  | fuel + 1, out, input => do
    let (symbol, input) ← code.read? input
    if symbol < 256 then readSymbols? code distances fuel (out.push (UInt8.ofNat symbol)) input
    else if symbol = 256 then return (out, input)
    else
      let (length, input) ← readExtended? lengthTable (symbol - 257) input
      let (symbol, input) ← distances.read? input
      let (distance, input) ← readExtended? distanceTable symbol input
      let out ← repeatBytes? distance length out
      readSymbols? code distances fuel out input

/-- Reads a block that is stored as it is. Its length stands in front, once as it is and once with
all bits turned. -/
def readStored? (out : Array UInt8) (input : BitInput) : Option (Array UInt8 × BitInput) := do
  let (length, input) ← input.align.number? 16
  let (turned, input) ← input.number? 16
  if length + turned ≠ 0xFFFF || input.bytes.length < length then none
  return ((input.bytes.take length).foldl Array.push out, ⟨[], input.bytes.drop length⟩)

/-- Reads blocks up to and with the last. -/
def readBlocks? : Nat → Array UInt8 → BitInput → Option (Array UInt8 × BitInput)
  | 0, _, _ => none
  | fuel + 1, out, input => do
    let (last, input) ← input.bit?
    let (kind, input) ← input.number? 2
    let (out, input) ← match kind with
      | 0 => readStored? out input
      | 1 => do
        let code ← PrefixCode.ofLengths? fixedLengths
        let distances ← PrefixCode.ofLengths? fixedDistances
        readSymbols? code distances (input.room + 1) out input
      | 2 => do
        let (code, distances, input) ← readCodes? input
        readSymbols? code distances (input.room + 1) out input
      | _ => none
    if last = 1 then return (out, input) else readBlocks? fuel out input

/-- The data that some bytes are the compressed form of, and the bytes behind it. -/
def inflate? (bytes : List UInt8) : Option (Array UInt8 × List UInt8) := do
  let input : BitInput := ⟨[], bytes⟩
  let (out, input) ← readBlocks? (input.room + 1) #[] input
  return (out, input.bytes)

end CardArchive.Gzip
