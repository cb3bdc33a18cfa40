import CardLink.Frame.Basic

/-!
# Blocks

A block as the exchange thinks of it: what it is, and the information it carries. Addresses, LEN and
the check belong to its frame, which is built when the block is sent.
-/

namespace CardLink

/-- A control byte's meaning and an information field that fits into one frame. -/
structure Block where
  pcb : Pcb
  inf : Bytes := []
  inf_length_le : inf.length ≤ maxInf := by decide
deriving DecidableEq

namespace Block

def plain (pcb : Pcb) : Block := { pcb }

def valued (pcb : Pcb) (value : UInt8) : Block :=
  { pcb, inf := [value], inf_length_le := by simp [maxInf] }

/-- The block whose frame has a body and header of zeros. -/
instance : Inhabited Block := ⟨plain (.info false false)⟩

/-- The first byte of the information field, the value of blocks about sizes and times. -/
def value? (b : Block) : Option UInt8 := b.inf.head?

end Block

def Frame.block (f : Frame) : Block where
  pcb := f.pcb
  inf := f.inf
  inf_length_le := by simp [f.infLength_le]

/-- The frame with a block put into it, not yet addressed and without a check. -/
def Frame.prepared (f : Frame) (b : Block) : Frame := (f.withPcb b.pcb).loaded b.inf

def Block.frame (b : Block) : Frame := Frame.blank.prepared b

end CardLink
