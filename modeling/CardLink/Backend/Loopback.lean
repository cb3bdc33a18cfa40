import CardLink.Backend.Basic

/-!
# Loopback

A backend that sends every sound frame back unchanged. Like some cards, it computes checks as if
the address were zero, and the frame that it sends back starts with that address.
-/

namespace CardLink

/-- A loopback endpoint. -/
structure Loopback where
  isOpen : Bool := false
  inbox : Bytes := []
  outbox : Option Bytes := none
  position : Nat := 0
deriving DecidableEq, Inhabited, Repr

namespace Loopback

def name : String := "echo"

def capacity : Nat := maxInf + 4

/-- What the endpoint refuses. -/
inductive Fault where
  | overflow
  | notOpen
deriving DecidableEq, Repr

def Fault.error : Fault → Error
  | overflow => .hardware name 3 "transmitted more than one frame"
  | notOpen => .hardware name 4 "echo endpoint is not open"

def settings : Options where
  host := 0xAA
  node := 0xBB
  bwt := Duration.ofMillis 3
  etu := Duration.ofMicros 1
  convention := some .zeroAddressCheck

/-- What a complete transmission comes back as: its first byte replaced by zero, if then its last
    byte is the check of the others. -/
def reflection? : Bytes → Option Bytes
  | [] => none
  | _ :: rest => if Bytes.check (0 :: rest) = 0 then some (0 :: rest) else none

def whenOpen (operation : Bus Loopback α) : Bus Loopback α := fun endpoint =>
  if endpoint.isOpen then operation endpoint else .error Fault.notOpen.error endpoint

/-- Reads on in the frame that is sent back. A complete read drops what is left of it. -/
def receive (room : Nat) (complete : Bool) : Bus Loopback Reading := whenOpen fun endpoint =>
  match endpoint.outbox with
  | none => .ok (.ofBytes []) endpoint
  | some frame =>
    let data := (frame.drop endpoint.position).take room
    .ok (.ofBytes data) <|
      if complete then { endpoint with outbox := none, position := 0 }
      else { endpoint with position := endpoint.position + data.length }

/-- The endpoint once a frame is complete. A sound frame replaces the one to send back. -/
def delivered (endpoint : Loopback) (frame : Bytes) : Loopback :=
  match reflection? frame with
  | some reflection => { endpoint with inbox := [], outbox := some reflection, position := 0 }
  | none => { endpoint with inbox := [] }

def transmit (data : Bytes) (complete : Bool) : Bus Loopback Nat := whenOpen fun endpoint =>
  if endpoint.inbox.length + data.length > capacity then
    .error Fault.overflow.error { endpoint with inbox := [] }
  else
    .ok data.length <|
      if complete then endpoint.delivered (endpoint.inbox ++ data)
      else { endpoint with inbox := endpoint.inbox ++ data }

/-- Matches if there is a frame to send back, and the address is the one it is sent to. -/
def poll (nad : UInt8) (_timeout : Duration) (complete : Bool) : Bus Loopback PollResult :=
  whenOpen fun endpoint =>
    if nad ≠ settings.host ∨ endpoint.outbox.isNone then .ok .timedOut endpoint
    else .ok .matched (if complete then endpoint else { endpoint with position := 1 })

/-- Frames that come back are neither new requests nor fresh acknowledgements, so an exchange ends
    soon. At most two frames from before the exchange can prolong it. -/
instance : Backend Loopback where
  name := name
  options _ := settings
  connect _ := .ok () { isOpen := true }
  disconnect endpoint := .ok () { endpoint with isOpen := false }
  receive := receive
  transmit := transmit
  poll := poll
  horizon _ := 64

end Loopback

end CardLink
