import CardLink.Negotiated
import CardLink.Pcb
import CardLink.Bytes

/-!
# Frames

The buffer in which one block is built and received. It holds 258 bytes: three of header, the node
address, the control byte and LEN, and 255 of body, room for the largest information field and the
check behind it. LEN alone says where the information field ends, so changing LEN shows other bytes
of the body. The reserved LEN 255 reads as 254.

Every operation keeps the size of the buffer, so every position that LEN can name lies inside it.
-/

namespace CardLink

/-- One block in a buffer of fixed size. -/
structure Frame where
  -- Node address
  nad : UInt8
  pcbByte : UInt8
  -- Length of the information field
  len : UInt8
  -- Information field, check, and whatever the buffer holds behind them
  body : Bytes
  body_length : body.length = maxInf + 1
deriving DecidableEq

namespace Frame

/-! ## Reading a frame -/

def pcb (f : Frame) : Pcb := Pcb.ofByte f.pcbByte

def infLength (f : Frame) : Nat := min f.len.toNat maxInf

theorem infLength_le (f : Frame) : f.infLength ≤ maxInf := Nat.min_le_right ..

theorem infLength_lt (f : Frame) : f.infLength < f.body.length := by
  rw [f.body_length]
  exact Nat.lt_succ_of_le f.infLength_le

def inf (f : Frame) : Bytes := f.body.take f.infLength

@[simp] theorem length_inf (f : Frame) : f.inf.length = f.infLength := by
  simp [inf, Nat.min_eq_left (Nat.le_of_lt f.infLength_lt)]

def header (f : Frame) : Bytes := [f.nad, f.pcbByte, f.len]

/-- The check that the frame carries, the byte behind the information field. -/
def check (f : Frame) : UInt8 := f.body.get ⟨f.infLength, f.infLength_lt⟩

def computedCheck (f : Frame) : UInt8 := Bytes.check (f.header ++ f.inf)

/-- The bytes that go over the wire: header, information field and check. -/
def bytes (f : Frame) : Bytes := f.header ++ f.body.take (f.infLength + 1)

def buffer (f : Frame) : Bytes := f.header ++ f.body

def isSound (f : Frame) : Bool := f.len.toNat ≤ maxInf && f.computedCheck == f.check

/-- The frame stands for a block that was never received. -/
def isAbsent (f : Frame) : Bool := f.pcbByte == Pcb.sentinel

@[simp] theorem length_buffer (f : Frame) : f.buffer.length = 258 := by
  simp [buffer, header, f.body_length, maxInf]

@[simp] theorem length_bytes (f : Frame) : f.bytes.length = f.infLength + 4 := by
  simp [bytes, header, Nat.min_eq_left f.infLength_lt]

/-! ## Frames to start from -/

def blank : Frame := ⟨0, 0, 0, List.replicate (maxInf + 1) 0, List.length_replicate⟩

instance : Inhabited Frame := ⟨blank⟩

/-- The buffer with all bytes set, which stands for a block that was never received. -/
def absent : Frame :=
  ⟨Pcb.sentinel, Pcb.sentinel, Pcb.sentinel, List.replicate (maxInf + 1) Pcb.sentinel,
    List.length_replicate⟩

/-! ## Changing a frame -/

def addressed (f : Frame) (nad : UInt8) : Frame := { f with nad }

def withPcb (f : Frame) (pcb : Pcb) : Frame := { f with pcbByte := pcb.toByte }

def withPcbByte (f : Frame) (pcbByte : UInt8) : Frame := { f with pcbByte }

/-- The frame with another LEN, which shows another part of its body as information. -/
def withLen (f : Frame) (len : UInt8) : Frame := { f with len }

/-- The frame with `fresh` written over the start of its body. -/
def overwritten (f : Frame) (fresh : Bytes) : Frame :=
  { f with
    body := fresh.overlay f.body
    body_length := by simp [f.body_length] }

/-- The frame with an information field of its own, as much of `inf` as one block holds. -/
def loaded (f : Frame) (inf : Bytes) : Frame :=
  { f.overwritten (inf.take maxInf) with len := UInt8.ofNat (inf.take maxInf).length }

/-- The frame with exactly this information field, which a block has to be able to hold. -/
def holding (f : Frame) (inf : Bytes) : Except Error Frame :=
  if inf.length ≤ maxInf then .ok (f.loaded inf) else .error (.invalidLength maxInf inf.length)

def checked (f : Frame) : Frame :=
  { f with
    body := f.body.set f.infLength f.computedCheck
    body_length := by simp [f.body_length] }

def withoutHeader (f : Frame) : Frame := { f with nad := 0, pcbByte := 0, len := 0 }

/-! ## Text -/

def text (f : Frame) : String :=
  "Frame \x7b nad: " ++ Hex.numeral f.nad ++ ", pcb: " ++ Pcb.receivedText f.pcbByte ++ ", len: "
    ++ toString f.len.toNat ++ ", inf: \"" ++ Hex.spaced f.inf ++ "\" \x7d"

end Frame

end CardLink
