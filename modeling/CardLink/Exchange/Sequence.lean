import CardLink.Frame.Basic

/-!
# Sequence bits and the error check

Information blocks of each side carry alternating sequence bits. A `Sequence` remembers the bit that
each side used last. `Sequence.fault?` says why a received frame may not be looked at: it has to be
sound and well formed, and an information block has to carry the other bit than the one before it.
`Sequence.after` says how the frame moves the bits.
-/

namespace CardLink

/-- The sequence bits that each side used last. -/
structure Sequence where
  host : Bool := true
  card : Bool := true
deriving DecidableEq, Repr

namespace Sequence

/-- Before the first block, so that both sides start with zero. -/
def fresh : Sequence := {}

instance : Inhabited Sequence := ⟨fresh⟩

def next (s : Sequence) : Bool := !s.host

end Sequence

/-- What is wrong with a frame. -/
inductive BlockFault where
  -- Its check does not fit its bytes
  | parity
  | other
deriving DecidableEq, Repr

namespace BlockFault

def text : BlockFault → String
  | parity => "parity error"
  | other => "other error"

/-- The block that asks for the block with bit `seq` again, and says what was wrong. -/
def report (fault : BlockFault) (seq : Bool) : Pcb :=
  .ready seq (fault == .other) (fault == .parity)

end BlockFault

namespace Sequence

/-! ## Checking a frame -/

/-- A sound frame that makes sense. Receive-ready blocks are empty, supervisory blocks carry as much
    as their kind asks for, a size is from 1 to 254, and an information block does not repeat the
    sequence bit of the one before it. -/
def isWellFormed (s : Sequence) (received : Frame) : Bool :=
  match received.pcb with
  | .ready _ _ _ => received.len == 0
  | .super kind _ =>
    received.len == (if kind.hasValue then 1 else 0) &&
      (kind != .ifs || (received.inf.head?.bind Ifs.ofByte?).isSome)
  | .info seq _ => seq != s.card

/-- What is wrong with a frame, if anything is: its block is missing, or its check does not fit, or
    it makes no sense. -/
def fault? (s : Sequence) (received : Frame) : Option BlockFault :=
  if received.isAbsent then some .other
  else if !received.isSound then some .parity
  else if s.isWellFormed received then none
  else some .other

/-! ## Moving the bits on -/

def answered (s : Sequence) (sent : Pcb) : Sequence :=
  match sent with
  | .info seq _ => { s with host := seq }
  | _ => s

def taken (s : Sequence) (received : Pcb) : Sequence :=
  match received with
  | .info seq _ => { s with card := seq }
  | _ => s

/-- The bits after a frame arrived in answer to `sent`. Any sound frame shows that the host's last
    information block arrived, also one that makes no sense. -/
def after (s : Sequence) (sent : Pcb) (received : Frame) : Sequence :=
  if received.isAbsent || !received.isSound then s
  else if s.isWellFormed received then (s.answered sent).taken received.pcb
  else s.answered sent

end Sequence

end CardLink
