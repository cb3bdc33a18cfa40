import CardLink.Backend.Basic

/-!
# Playback

A backend that does what it is told: the result of every poll, read and transmission is laid down
beforehand, one after another. With `Traced` around it, it shows how the protocol uses a bus that may
fail anywhere.
-/

namespace CardLink

/-- Results still to come. -/
structure Playback where
  -- What polls give. Later ones time out
  polls : List (Except Error PollResult) := []
  -- What reads give, of which a read takes as much as it has room for. Later ones give nothing
  reads : List (Except Error Bytes) := []
  -- Whether transmissions succeed. Later ones do
  writes : List (Except Error Unit) := []
deriving Inhabited

namespace Playback

def give (result : Except Error α) : Bus Playback α := fun p =>
  match result with
  | .ok a => .ok a p
  | .error e => .error e p

def receive (room : Nat) (_complete : Bool) : Bus Playback Reading := fun p =>
  give ((p.reads.head?.getD (.ok [])).map fun data => .ofBytes (data.take room))
    { p with reads := p.reads.tail }

def transmit (data : Bytes) (_complete : Bool) : Bus Playback Nat := fun p =>
  give ((p.writes.head?.getD (.ok ())).map fun _ => data.length) { p with writes := p.writes.tail }

def poll (_nad : UInt8) (_timeout : Duration) (_complete : Bool) : Bus Playback PollResult :=
  fun p => give (p.polls.head?.getD (.ok .timedOut)) { p with polls := p.polls.tail }

/-- Each round takes one poll. When they are used up, the exchange is over within eight rounds. -/
instance : Backend Playback where
  name := "script"
  connect p := .ok () p
  receive := receive
  transmit := transmit
  poll := poll
  horizon p := p.polls.length + 8

end Playback

end CardLink
