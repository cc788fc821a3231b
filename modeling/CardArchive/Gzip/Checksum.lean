/-!
# Checksums

The cyclic redundancy check of 32 bits by which compressed data is verified.
-/

namespace CardArchive.Gzip

/-- The polynomial of the check, lowest power last. -/
def polynomial : UInt32 := 0xEDB88320

/-- One bit further. -/
def checksumBit (sum : UInt32) : UInt32 :=
  if sum &&& 1 = 1 then (sum >>> 1) ^^^ polynomial else sum >>> 1

/-- One byte further. -/
def checksumByte (sum : UInt32) (b : UInt8) : UInt32 :=
  (List.range 8).foldl (fun sum _ => checksumBit sum) (sum ^^^ b.toUInt32)

/-- The checksum of some bytes. -/
def checksum (bytes : List UInt8) : UInt32 := (bytes.foldl checksumByte 0xFFFFFFFF) ^^^ 0xFFFFFFFF

end CardArchive.Gzip
