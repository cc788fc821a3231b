/-!
# Bits of a byte sequence

Compressed data is read bit by bit, the lowest bit of each byte first. Numbers have their lowest bit
in front.
-/

namespace CardArchive.Gzip

/-- What is left of a byte sequence that is read bit by bit. -/
structure BitInput where
  /-- The bits left of the byte under way. -/
  pending : List Bool
  /-- The bytes behind it. -/
  bytes : List UInt8

namespace BitInput

/-- The bits of a byte, the lowest first. -/
def bitsOf (b : UInt8) : List Bool := (List.range 8).map fun i => b.toNat.testBit i

/-- The next bit. -/
def bit? : BitInput → Option (Nat × BitInput)
  | ⟨bit :: pending, bytes⟩ => some (bit.toNat, ⟨pending, bytes⟩)
  | ⟨[], b :: bytes⟩ =>
    match bitsOf b with
    | bit :: pending => some (bit.toNat, ⟨pending, bytes⟩)
    | [] => none
  | ⟨[], []⟩ => none

/-- A number of the given width. -/
def number? : Nat → BitInput → Option (Nat × BitInput)
  | 0, input => some (0, input)
  | width + 1, input => do
    let (low, input) ← input.bit?
    let (high, input) ← number? width input
    return (low + 2 * high, input)

/-- Passes over what is left of the byte under way. -/
def align (input : BitInput) : BitInput := ⟨[], input.bytes⟩

/-- How many bits are left at most; a measure of how many steps reading can take. -/
def room (input : BitInput) : Nat := input.pending.length + 8 * input.bytes.length

end BitInput

end CardArchive.Gzip
