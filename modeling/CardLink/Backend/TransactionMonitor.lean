import CardLink.Backend.Basic

/-!
# Transaction monitor

A backend that moves no bytes and watches the use of the bus: it reports a failure when one
direction starts while the other still holds the bus.
-/

namespace CardLink

/-- Which directions have released the bus. -/
structure BusUse where
  received : Bool := true
  transmitted : Bool := true
deriving DecidableEq, Inhabited, Repr

/-- A monitor, closed or watching. -/
structure TransactionMonitor where
  use : Option BusUse := none
deriving DecidableEq, Inhabited, Repr

namespace TransactionMonitor

def name : String := "fake"

/-- The only address that polls match. -/
def address : UInt8 := 0xAD

/-- What the monitor reports. -/
inductive Fault where
  | closedMidTransfer
  -- A read or poll while a transmission is not complete
  | receiveDuringTransmit
  | transmitDuringReceive
  | notOpen
deriving DecidableEq, Repr

def Fault.code : Fault → Int
  | closedMidTransfer => 3
  | receiveDuringTransmit => 4
  | transmitDuringReceive => 5
  | notOpen => 6

def Fault.message : Fault → String
  | closedMidTransfer => "interface closed without finishing transmission"
  | receiveDuringTransmit => "receive called without completing transmission"
  | transmitDuringReceive => "transmit called without completing reception"
  | notOpen => "fake interface is not open"

def Fault.error (fault : Fault) : Error := .hardware name fault.code fault.message

def isIdle (monitor : TransactionMonitor) : Bool :=
  monitor.use == some { received := true, transmitted := true }

/-- An operation on the use of the bus, which the monitor refuses unless it is open. -/
def whenOpen (operation : BusUse → Except Error (α × Option BusUse)) : Bus TransactionMonitor α :=
  fun monitor =>
    match monitor.use with
    | none => .error Fault.notOpen.error monitor
    | some use =>
      match operation use with
      | .ok (a, use) => .ok a { use }
      | .error e => .error e monitor

def disconnect : Bus TransactionMonitor Unit := whenOpen fun use =>
  if use.received && use.transmitted then .ok ((), none) else .error Fault.closedMidTransfer.error

def receive (room : Nat) (complete : Bool) : Bus TransactionMonitor Reading := whenOpen fun use =>
  if use.transmitted then .ok (⟨room, []⟩, some { use with received := complete })
  else .error Fault.receiveDuringTransmit.error

def transmit (data : Bytes) (complete : Bool) : Bus TransactionMonitor Nat := whenOpen fun use =>
  if use.received then .ok (data.length, some { use with transmitted := complete })
  else .error Fault.transmitDuringReceive.error

def poll (nad : UInt8) (timeout : Duration) (complete : Bool) : Bus TransactionMonitor PollResult :=
  whenOpen fun use =>
    if !use.transmitted then .error Fault.receiveDuringTransmit.error
    else if timeout.isZero then .ok (.timedOut, some use)
    else
      .ok (if nad = address then .matched else .timedOut, some { use with received := complete })

/-- Nothing ever arrives, so every exchange is given up within eight rounds. -/
instance : Backend TransactionMonitor where
  name := name
  options _ := { host := address, node := 0xDA, bwt := Duration.ofMillis 10 }
  connect _ := .ok () { use := some {} }
  disconnect := disconnect
  receive := receive
  transmit := transmit
  poll := poll
  horizon _ := 8

end TransactionMonitor

end CardLink
