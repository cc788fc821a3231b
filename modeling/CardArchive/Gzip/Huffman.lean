import CardArchive.Gzip.Bits

/-!
# Prefix codes

A code gives each symbol a number of bits, and symbols with no bits are not in it. The bits
themselves follow from the numbers: codes of one length are numbered in the order of their symbols,
and shorter codes come first. A code has to use up all bit sequences, unless it has one symbol or
none.
-/

namespace CardArchive.Gzip

/-- The largest number of bits of a symbol. -/
def maxCodeLength : Nat := 15

/-- A prefix code. -/
structure PrefixCode where
  /-- How many symbols have one bit, two bits, and so on. -/
  counts : List Nat
  /-- The symbols in the order of their codes. -/
  symbols : Array Nat

namespace PrefixCode

/-- The bit sequences that codes leave over, counted at the length that the counts end with; none
when there are more codes than sequences. -/
def unused? : Nat → List Nat → Option Nat
  | left, [] => some left
  | left, count :: counts => if 2 * left < count then none else unused? (2 * left - count) counts

/-- The code in which the symbol at each place has the given number of bits. -/
def ofLengths? (lengths : List Nat) : Option PrefixCode :=
  let widths := (List.range maxCodeLength).map (· + 1)
  let counts := widths.map fun width => lengths.count width
  let symbols := widths.flatMap fun width =>
    (lengths.zipIdx.filter fun (w, _) => w = width).map Prod.snd
  match unused? 1 counts with
  | none => none
  | some left => if left = 0 || symbols.length ≤ 1 then some ⟨counts, symbols.toArray⟩ else none

/-- Reads a symbol: `code` holds the bits so far, `first` is the first code of the length at hand
and `index` its place among the symbols. -/
def readFrom? (symbols : Array Nat) :
    List Nat → Nat → Nat → Nat → BitInput → Option (Nat × BitInput)
  | [], _, _, _, _ => none
  | count :: counts, code, first, index, input => do
    let (bit, input) ← input.bit?
    let code := 2 * code + bit
    if code < first + count then
      let symbol ← symbols[index + (code - first)]?
      return (symbol, input)
    else readFrom? symbols counts code (2 * (first + count)) (index + count) input

/-- Reads a symbol. -/
def read? (c : PrefixCode) (input : BitInput) : Option (Nat × BitInput) :=
  readFrom? c.symbols c.counts 0 0 0 input

end PrefixCode

end CardArchive.Gzip
