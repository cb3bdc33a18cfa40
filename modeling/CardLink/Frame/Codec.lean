import CardLink.Frame.Basic

/-!
# Wire format

Complete blocks as byte strings: node address, control byte, LEN, LEN bytes of information and the
check of all that. `Frame.encode` builds a block in a blank frame, as a host does in its buffers, and
gives the bytes of the frame; `Frame.wire` says which these are. `Frame.decode` reads a block, refusing
whatever could not have been written, for the first reason that applies: too short for a block, the
reserved LEN, a length other than LEN asks for, and last a wrong check.
-/

namespace CardLink.Frame

/-- The refusal of LEN 255. -/
def reservedLen : Error := .frameFormat "LEN 255 is reserved"

/-- Header, information field and check, of an information field that fits into one block. -/
def wire (nad : UInt8) (pcb : Pcb) (inf : Bytes) : Bytes :=
  let block := nad :: pcb.toByte :: UInt8.ofNat inf.length :: inf
  block ++ [Bytes.check block]

/-- The bytes of a block that is put into a blank frame, addressed and given its check. -/
def encode (nad : UInt8) (pcb : Pcb) (inf : Bytes) : Except Error Bytes :=
  ((blank.withPcb pcb).holding inf).map fun f => (f.addressed nad).checked.bytes

def decode : Bytes → Except Error Frame
  | nad :: pcbByte :: len :: first :: rest =>
    if len = 255 then .error reservedLen
    else if rest.length ≠ len.toNat then .error (.invalidLength (len.toNat + 4) (rest.length + 4))
    else
      let frame := { blank.overwritten (first :: rest) with nad, pcbByte, len }
      if frame.computedCheck = frame.check then .ok frame
      else .error (.checksumMismatch frame.computedCheck frame.check)
  | short => .error (.invalidLength 4 short.length)

end CardLink.Frame
