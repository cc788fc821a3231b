import CardArchive.Gzip.Checksum
import CardArchive.Gzip.Inflate

/-!
# Gzip members

A gzip file is a sequence of members: a header, compressed data, a checksum and the length. Only the
first member is read; what is behind it is left alone. Everything that the format lets a reader
verify is verified.
-/

namespace CardArchive.Gzip

/-- A number of two bytes, the lower first. -/
def pair? : List UInt8 → Option (Nat × List UInt8)
  | low :: high :: rest => some (low.toNat + 256 * high.toNat, rest)
  | _ => none

/-- A number of four bytes, the lowest first. -/
def quad? (bytes : List UInt8) : Option (Nat × List UInt8) := do
  let (low, rest) ← pair? bytes
  let (high, rest) ← pair? rest
  return (low + 65536 * high, rest)

/-- How many bytes a text in a header may have. -/
def maxHeaderText : Nat := 65535

/-- Passes over a text that ends with a zero byte. -/
def skipText? (bytes : List UInt8) : Option (List UInt8) :=
  match bytes.dropWhile (· ≠ 0) with
  | [] => none
  | _ :: rest => if bytes.length - rest.length - 1 ≤ maxHeaderText then some rest else none

/-- Passes over bytes that are counted in front. -/
def skipCounted? (bytes : List UInt8) : Option (List UInt8) := do
  let (count, rest) ← pair? bytes
  if rest.length < count then none else some (rest.drop count)

/-- Passes over the header. -/
def skipHeader? (bytes : List UInt8) : Option (List UInt8) :=
  match bytes with
  | 0x1F :: 0x8B :: 8 :: flags :: rest => do
    let has (bit : Nat) : Bool := flags.toNat.testBit bit
    if 0x20 ≤ flags.toNat || rest.length < 6 then none
    let rest := rest.drop 6
    let rest ← if has 2 then skipCounted? rest else some rest
    let rest ← if has 3 then skipText? rest else some rest
    let rest ← if has 4 then skipText? rest else some rest
    if has 1 then
      let (sum, behind) ← pair? rest
      let header := bytes.take (bytes.length - rest.length)
      if sum = (checksum header).toNat % 65536 then some behind else none
    else some rest
  | _ => none

/-- The data of the first member. -/
def decode? (bytes : List UInt8) : Option (List UInt8) := do
  let body ← skipHeader? bytes
  let (data, rest) ← inflate? body
  let (sum, rest) ← quad? rest
  let (size, _) ← quad? rest
  let data := data.toList
  if sum = (checksum data).toNat && size = data.length % 0x100000000 then some data else none

end CardArchive.Gzip
