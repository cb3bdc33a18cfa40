import CardLink.Bytes

/-!
# Hexadecimal text

Bytes as lowercase hexadecimal digits: run together, separated by spaces, or as a dump with the
offset of each line in front.
-/

namespace CardLink.Hex

def byte (b : UInt8) : String :=
  String.ofList [Nat.digitChar (b.toNat / 16), Nat.digitChar (b.toNat % 16)]

/-- A byte as a numeral, `0x5a`. -/
def numeral (b : UInt8) : String :=
  "0x" ++ byte b

/-- All bytes without a separator, `dead`. -/
def plain (bytes : Bytes) : String :=
  String.join (bytes.map byte)

/-- All bytes with one space between two of them, `de ad`. -/
def spaced (bytes : Bytes) : String :=
  " ".intercalate (bytes.map byte)

def offset (n : Nat) : String :=
  let digits := Nat.toDigits 16 n
  String.ofList (List.replicate (4 - digits.length) '0' ++ digits)

/-- Lines of `width` bytes, each behind its offset. A width of zero counts as one. -/
def dump (bytes : Bytes) (width : Nat) : String :=
  "\n".intercalate <| (bytes.chunks width).mapIdx fun line chunk =>
    offset (line * max 1 width) ++ ": " ++ spaced chunk

end CardLink.Hex
