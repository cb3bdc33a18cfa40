import CardLink.Duration
import CardLink.Frame.Basic

/-!
# Options

The addresses and times with which two sides talk, fixed while a session is open.

Some cards compute the check of a block as if its node address were zero. For those the options
name a convention under which every frame passes right before it is sent and right after it was
received.
-/

namespace CardLink

/-- Which way a frame is going. -/
inductive Direction where
  | transmit
  | receive
deriving DecidableEq, Repr

/-- A departure from the usual way to check frames. There are no others: what is said of all options is said
    of those without a convention and of those with one of these, not of any way to rewrite a frame. A
    convention leaves what the frame says as it is (`Options.block_underConvention`). -/
inductive Convention where
  -- The check is computed as if the node address were zero
  | zeroAddressCheck
deriving DecidableEq, Repr

/-- Addresses and times of a session, and the one convention for its frames, if any. -/
structure Options where
  -- The address this side listens for
  host : UInt8 := 0xA5
  -- The address this side sends to
  node : UInt8 := 0x5A
  -- Block waiting time
  bwt : Duration := Duration.ofMillis 1624
  -- Elementary time unit
  etu : Duration := Duration.ofMicros 1050
  -- How frames are checked, if not in the usual way
  convention : Option Convention := none
deriving DecidableEq, Inhabited

namespace Options

/-! ## Times -/

def characterTime (o : Options) : Duration := o.etu.scale 7

/-! ## Frames under a convention -/

/-- What a convention does to a frame on its way. Outbound, the check is computed over a zero
    address and the address then restored; inbound, the address is replaced by zero so that the
    usual check applies. -/
def underConvention (o : Options) (direction : Direction) (f : Frame) : Frame :=
  match o.convention, direction with
  | none, _ => f
  | some .zeroAddressCheck, .transmit => (f.addressed 0).checked.addressed o.node
  | some .zeroAddressCheck, .receive => f.addressed 0

/-- The frame as it goes over the wire: addressed, and carrying its check. -/
def outbound (o : Options) (f : Frame) : Frame :=
  o.underConvention .transmit (f.addressed o.node).checked

/-! ## Validity -/

/-- Why no exchange could succeed under some options. -/
inductive Fault where
  | noWaitingTime
  | noTimeUnit
  | unitExceedsWait (etu bwt : Duration)
deriving DecidableEq

def Fault.message : Fault → String
  | noWaitingTime => "block waiting time must be non-zero"
  | noTimeUnit => "elementary time unit must be non-zero"
  | unitExceedsWait etu bwt =>
    "elementary time unit " ++ etu.text ++ " exceeds block waiting time " ++ bwt.text

/-- The first fault of some options: both times have to be positive, and the time unit at most the
    waiting time. -/
def fault? (o : Options) : Option Fault :=
  if o.bwt.isZero then some .noWaitingTime
  else if o.etu.isZero then some .noTimeUnit
  else if o.bwt.nanos < o.etu.nanos then some (.unitExceedsWait o.etu o.bwt)
  else none

def validate (o : Options) : Except Error Unit :=
  match o.fault? with
  | some fault => .error (.config fault.message)
  | none => .ok ()

/-! ## Text -/

/-- All fields of the options; of the convention only whether there is one. -/
def text (o : Options) : String :=
  "ProtocolOptions \x7b host_address: " ++ Hex.numeral o.host ++ ", node_address: "
    ++ Hex.numeral o.node ++ ", bwt: " ++ o.bwt.text ++ ", etu: " ++ o.etu.text ++ ", preprocess: "
    ++ toString o.convention.isSome ++ " \x7d"

end Options

end CardLink
