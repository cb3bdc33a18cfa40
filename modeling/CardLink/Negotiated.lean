import CardLink.Error

/-!
# Negotiated quantities

The two values that supervisory blocks negotiate: the largest information field of a block, and the
factor by which the next wait is stretched. Both are bytes with a value ruled out, and the type
rules it out.
-/

namespace CardLink

def maxInf : Nat := 254

/-! ## Information field size -/

/-- The largest information field that a side takes, 1 to 254 bytes. -/
structure Ifs where
  val : UInt8
  pos : 0 < val.toNat
  le_maxInf : val.toNat ≤ maxInf
deriving DecidableEq

namespace Ifs

def largest : Ifs := ⟨254, by decide, by decide⟩

instance : Inhabited Ifs := ⟨largest⟩

def ofByte? (byte : UInt8) : Option Ifs :=
  if h : 0 < byte.toNat ∧ byte.toNat ≤ maxInf then some ⟨byte, h.1, h.2⟩ else none

/-- The size that a byte stands for, or the reason why it stands for none. -/
def ofByte (byte : UInt8) : Except Error Ifs :=
  match ofByte? byte with
  | some ifs => .ok ifs
  | none => .error (.invalidLength maxInf byte.toNat)

def toNat (ifs : Ifs) : Nat := ifs.val.toNat

def text (ifs : Ifs) : String :=
  "Ifs(" ++ toString ifs.toNat ++ ")"

end Ifs

/-! ## Waiting time extension -/

/-- The factor by which the card stretches one wait, at least 1. -/
structure WaitFactor where
  val : UInt8
  pos : 0 < val.toNat
deriving DecidableEq

namespace WaitFactor

def one : WaitFactor := ⟨1, by decide⟩

instance : Inhabited WaitFactor := ⟨one⟩

def ofByte (byte : UInt8) : WaitFactor :=
  if h : 0 < byte.toNat then ⟨byte, h⟩ else one

end WaitFactor

end CardLink
