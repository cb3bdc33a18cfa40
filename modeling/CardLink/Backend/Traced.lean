import CardLink.Backend.Basic

/-!
# Traced backends

Any backend, with a record of the calls that were made on it. The calls that take part in an
exchange are recorded with their arguments, whether they succeed or fail.
-/

namespace CardLink

/-- One call on a bus, with its arguments. -/
inductive Call where
  | connect
  | receive (room : Nat) (complete : Bool)
  | transmit (data : Bytes) (complete : Bool)
  | poll (nad : UInt8) (timeout : Duration) (complete : Bool)
deriving DecidableEq

/-- A bus, and the calls that were made on it. -/
structure Traced (σ : Type) where
  bus : σ
  calls : List Call := []

namespace Traced

variable {σ α : Type}

/-- An operation on the bus inside, recorded as `calls`. -/
def lifting (calls : List Call) (operation : Bus σ α) : Bus (Traced σ) α := fun t =>
  match operation t.bus with
  | .ok a bus => .ok a ⟨bus, t.calls ++ calls⟩
  | .error e bus => .error e ⟨bus, t.calls ++ calls⟩

instance [Backend σ] : Backend (Traced σ) where
  name := Backend.name σ
  options t := Backend.options t.bus
  connect := lifting [.connect] Backend.connect
  disconnect := lifting [] Backend.disconnect
  receive room complete := lifting [.receive room complete] (Backend.receive room complete)
  transmit data complete := lifting [.transmit data complete] (Backend.transmit data complete)
  poll nad timeout complete :=
    lifting [.poll nad timeout complete] (Backend.poll nad timeout complete)
  reset := lifting [] Backend.reset
  horizon t := Backend.horizon t.bus

end Traced

end CardLink
