import CardLink.Backend.Basic

/-!
# Observed backends

Any backend, with a record of what it was asked to do with frames and of what became of each of these
calls. Calls that move no frames are passed on without a record.
-/

namespace CardLink

/-- One call that takes part in moving frames, with its arguments and its result. -/
inductive Event where
  | transmit (data : Bytes) (complete : Bool) (result : Except Error Nat)
  | poll (nad : UInt8) (timeout : Duration) (complete : Bool) (result : Except Error PollResult)
  | receive (room : Nat) (complete : Bool) (result : Except Error Reading)

/-- A bus, and what has happened on it. -/
structure Observed (σ : Type) where
  bus : σ
  events : List Event := []

namespace Observed

variable {σ α : Type}

/-- An operation on the bus inside, recorded with its result. -/
def noting (event : Except Error α → Event) (operation : Bus σ α) : Bus (Observed σ) α := fun t =>
  match operation t.bus with
  | .ok a bus => .ok a ⟨bus, t.events ++ [event (.ok a)]⟩
  | .error e bus => .error e ⟨bus, t.events ++ [event (.error e)]⟩

/-- An operation on the bus inside, without a record. -/
def unnoticed (operation : Bus σ α) : Bus (Observed σ) α := fun t =>
  match operation t.bus with
  | .ok a bus => .ok a { t with bus }
  | .error e bus => .error e { t with bus }

instance [Backend σ] : Backend (Observed σ) where
  name := Backend.name σ
  options t := Backend.options t.bus
  connect := unnoticed Backend.connect
  disconnect := unnoticed Backend.disconnect
  receive room complete := noting (.receive room complete) (Backend.receive room complete)
  transmit data complete := noting (.transmit data complete) (Backend.transmit data complete)
  poll nad timeout complete :=
    noting (.poll nad timeout complete) (Backend.poll nad timeout complete)
  reset := unnoticed Backend.reset
  horizon t := Backend.horizon t.bus

end Observed

end CardLink
