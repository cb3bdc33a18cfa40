/-!
# Protocol control byte

One byte of a block's header tells the three kinds of block apart by its top two bits.

```text
I-block  0 S M 0 0 0 0 0    S = sequence, M = more data follows
R-block  1 0 0 N 0 0 O P    N = sequence expected next, O = other error, P = parity error
S-block  1 1 R 0 0 0 T T    R = response, TT = RESYNC / IFS / ABORT / WTX
```

Every byte has a meaning: reserved bits are ignored when a byte is read. They are zero when it is
written, so only canonical bytes survive reading and writing. The byte `0xff`, which would read as
an S-block, is set aside to mark a block that was never received.
-/

namespace CardLink

/-- What a supervisory block is about. -/
inductive Supervisory where
  -- Start again with fresh sequence bits
  | resync
  -- The largest information field one side takes
  | ifs
  -- Give up the current chain
  | abort
  -- More time for the card
  | wtx
deriving DecidableEq, Repr

namespace Supervisory

def ofByte (byte : UInt8) : Supervisory :=
  if byte &&& 2 = 0 then
    if byte &&& 1 = 0 then .resync else .ifs
  else
    if byte &&& 1 = 0 then .abort else .wtx

def bits : Supervisory → UInt8
  | .resync => 0
  | .ifs => 1
  | .abort => 2
  | .wtx => 3

/-- Blocks about sizes and times carry one byte of information, the others none. -/
def hasValue : Supervisory → Bool
  | .ifs | .wtx => true
  | .resync | .abort => false

def name : Supervisory → String
  | .resync => "RESYNC"
  | .ifs => "IFS"
  | .abort => "ABORT"
  | .wtx => "WTX"

end Supervisory

/-- The meaning of a protocol control byte. -/
inductive Pcb where
  -- An information block: its sequence bit, and whether more data follows
  | info (seq more : Bool)
  -- A receive-ready block: the sequence bit expected next, and what was wrong with the last block
  | ready (seq other parity : Bool)
  -- A supervisory block, a request or a response
  | super (kind : Supervisory) (response : Bool)
deriving DecidableEq, Repr

namespace Pcb

/-! ## Common control bytes -/

abbrev ack (seq : Bool) : Pcb := .ready seq false false

abbrev request (kind : Supervisory) : Pcb := .super kind false

abbrev response (kind : Supervisory) : Pcb := .super kind true

def isPlainAck : Pcb → Bool
  | .ready _ other parity => !other && !parity
  | _ => false

def isInfo : Pcb → Bool
  | .info _ _ => true
  | _ => false

/-! ## Reading and writing the byte -/

def ofByte (byte : UInt8) : Pcb :=
  if byte &&& 0x80 = 0 then .info (byte &&& 0x40 != 0) (byte &&& 0x20 != 0)
  else if byte &&& 0x40 = 0 then
    .ready (byte &&& 0x10 != 0) (byte &&& 0x02 != 0) (byte &&& 0x01 != 0)
  else .super (Supervisory.ofByte byte) (byte &&& 0x20 != 0)

def bit (flag : Bool) (mask : UInt8) : UInt8 :=
  if flag then mask else 0

def toByte : Pcb → UInt8
  | .info seq more => bit seq 0x40 ||| bit more 0x20
  | .ready seq other parity => 0x80 ||| bit seq 0x10 ||| bit other 0x02 ||| bit parity 0x01
  | .super kind response => 0xC0 ||| bit response 0x20 ||| kind.bits

/-- The byte that marks a block which was never received. -/
def sentinel : UInt8 := 0xFF

@[simp] theorem ofByte_toByte (pcb : Pcb) : ofByte pcb.toByte = pcb := by
  cases pcb with
  | info seq more => cases seq <;> cases more <;> rfl
  | ready seq other parity => cases seq <;> cases other <;> cases parity <;> rfl
  | super kind response => cases kind <;> cases response <;> rfl

theorem toByte_ne_sentinel (pcb : Pcb) : pcb.toByte ≠ sentinel := by
  cases pcb with
  | info seq more => cases seq <;> cases more <;> decide
  | ready seq other parity => cases seq <;> cases other <;> cases parity <;> decide
  | super kind response => cases kind <;> cases response <;> decide

/-! ## Text -/

def flagText (flag : Bool) : String :=
  if flag then "1" else "0"

/-- The kind of block and its flags, `I(0, 1)`, `R(1, 0, 0)` or `S(WTX, REQUEST)`. -/
def text : Pcb → String
  | .info seq more => "I(" ++ flagText seq ++ ", " ++ flagText more ++ ")"
  | .ready seq other parity =>
    "R(" ++ flagText seq ++ ", " ++ flagText other ++ ", " ++ flagText parity ++ ")"
  | .super kind response =>
    "S(" ++ kind.name ++ ", " ++ (if response then "RESPONSE" else "REQUEST") ++ ")"

def sentinelText : String := "INTERNAL-ERROR"

def receivedText (byte : UInt8) : String :=
  if byte = sentinel then sentinelText else (ofByte byte).text

/-- The text of a byte in a trace, which shows no meaning for a byte with reserved bits set. -/
def traceText (byte : UInt8) : String :=
  if byte = sentinel then sentinelText
  else if (ofByte byte).toByte = byte then (ofByte byte).text
  else "???"

end Pcb

end CardLink
