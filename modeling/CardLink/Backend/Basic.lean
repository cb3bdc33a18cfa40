import CardLink.Options.Basic

/-!
# Backends

What the protocol asks of the bus below it. A backend sends and receives raw bytes, and several
calls may share one bus transaction, which is released by a call that is marked complete. Polling
waits for the address that starts a frame, and consumes it.

A backend is a type of states with these operations on it. An operation that fails still leaves a
state behind, so failures are part of the monad `Bus`.
-/

namespace CardLink

/-- An operation on a bus whose state is of type `σ`. A failure keeps the state that it left. -/
abbrev Bus (σ : Type) := EStateM Error σ

/-- What became of waiting for a frame. -/
inductive PollResult where
  -- The address was seen, and consumed
  | matched
  -- Nothing that matches arrived in time
  | timedOut
deriving DecidableEq, Repr

def PollResult.text : PollResult → String
  | matched => "matched"
  | timedOut => "timed out"

/-- What a backend answers to a request for bytes: how many it reports as read, and the bytes that
    it wrote into the reader's buffer. Most backends report exactly what they wrote. -/
structure Reading where
  count : Nat
  data : Bytes
deriving DecidableEq, Repr

def Reading.ofBytes (data : Bytes) : Reading := ⟨data.length, data⟩

/-- A bus that carries frames. -/
class Backend (σ : Type) where
  -- The name under which the backend reports failures
  name : String
  -- The options a session uses if it is given none
  options : σ → Options := fun _ => {}
  -- Makes the bus ready for use
  connect : Bus σ Unit
  disconnect : Bus σ Unit := pure ()
  -- Reads at most `room` bytes
  receive (room : Nat) (complete : Bool) : Bus σ Reading
  -- Sends bytes, and reports how many were sent
  transmit (data : Bytes) (complete : Bool) : Bus σ Nat
  poll (nad : UInt8) (timeout : Duration) (complete : Bool) : Bus σ PollResult
  -- Resets the card by hardware
  reset : Bus σ Unit := throw (.unsupported (name ++ " has no hardware reset"))
  -- A number of rounds within which every exchange that starts in this state is over
  horizon : σ → Nat

end CardLink
