import CardLink.Backend.Basic
import CardLink.Frame.Codec

/-!
# Frames over a bus

Sending and receiving one frame. A frame is sent in one complete transmission. It is received by a
poll, which consumes its address, a read of control byte and LEN, and a read of as many bytes as LEN
asks for and the check.

The bus is held from the poll on. Whatever goes wrong after it, the last read is a complete one, so
the bus is released before the next frame is sent. Checks are left to the receiver.

`Frame.converse` sends one frame and waits for another, and takes all failures on the bus for a frame
that was never received.
-/

namespace CardLink.Frame

variable {σ : Type} [Backend σ]

/-- Sends a frame and reports how many bytes were sent. What is sent is `o.outbound frame`. -/
def send (o : Options) (frame : Frame) : Bus σ Nat :=
  Backend.transmit (o.outbound frame).bytes true

def release : Bus σ Unit := do
  let _ ← Backend.receive 0 true

def releaseAndThrow (failure : Error) : Bus σ α := do
  release
  throw failure

/-- A read that releases the bus if it fails. A failure to release it is not reported. -/
def guardedRead (room : Nat) (complete : Bool) : Bus σ Reading := fun bus =>
  match Backend.receive room complete bus with
  | .ok reading bus => .ok reading bus
  | .error failure bus =>
    match (release : Bus σ Unit) bus with
    | .ok _ bus | .error _ bus => .error failure bus

def receiveBody (o : Options) (frame : Frame) (pcbByte len : UInt8) : Bus σ Frame := do
  let room := len.toNat + 1
  let rest ← guardedRead room true
  if rest.count = room then
    return o.underConvention .receive
      { frame.overwritten (rest.data.take room) with nad := o.host, pcbByte, len }
  else throw (.invalidLength room rest.count)

def receiveRest (o : Options) (frame : Frame) : Bus σ Frame := do
  let start ← guardedRead 2 false
  let pcbByte := start.data[0]?.getD frame.pcbByte
  let len := start.data[1]?.getD frame.len
  -- Only now is it known how much more there is to read, so a failure here has to let go of the bus.
  if start.count ≠ 2 then releaseAndThrow (.invalidLength 2 start.count)
  else if len = 255 then releaseAndThrow reservedLen
  else receiveBody o frame pcbByte len

/-- Waits for a frame and reads it into `frame`, whose other bytes stay. -/
def receive (o : Options) (timeout : Duration) (frame : Frame) : Bus σ Frame := do
  match ← Backend.poll o.host timeout false with
  | .timedOut => throw .timeout
  | .matched => receiveRest o frame

/-- Waits for a frame, and tells how many bytes of information it brought. -/
def receiveCounted (o : Options) (timeout : Duration) (frame : Frame) : Bus σ (Frame × Nat) := do
  let received ← receive o timeout frame
  return (received, received.len.toNat)

/-! ## Question and answer -/

def stateAfter (result : EStateM.Result Error σ α) : σ :=
  match result with
  | .ok _ bus => bus
  | .error _ bus => bus

/-- Waits for a frame. A failure counts as a frame that was never received. -/
def listen (o : Options) (timeout : Duration) (bus : σ) : Frame × σ :=
  match (receive o timeout absent).run bus with
  | .ok frame bus => (frame, bus)
  | .error _ bus => (absent, bus)

/-- Sends a frame and waits for the answer. A failure to send shows as a missing answer. -/
def converse (o : Options) (timeout : Duration) (frame : Frame) (bus : σ) : Frame × σ :=
  listen o timeout (stateAfter ((send o frame).run bus))

end CardLink.Frame
