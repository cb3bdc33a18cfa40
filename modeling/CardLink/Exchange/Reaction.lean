import CardLink.Exchange.Transfer

/-!
# Rules of an exchange

What to do about the block that was received, given the block that it answers. The block that an
answer is awaited for is the *reference*. It is one that the host sends: a part of the payload, an
acknowledgement of a part of the response, or a supervisory block.

A received frame either passes the check and gives a block, or is refused for a fault. For each
reference `Transfer.answer?` says what follows from that. A block that no rule allows is then treated
as a refused one, and `judge` counts refused frames: the third calls for a new start of both sides,
the sixth for a reset of the card.
-/

namespace CardLink

/-- What to do next. -/
inductive Reaction where
  -- The exchange has succeeded
  | complete
  -- The card has given up the exchange
  | abort
  | hardFail
  -- The card needs a reset by hardware
  | resetDevice
  -- Start the exchange again with fresh sequence bits
  | resetSession
  | retransmit
  -- Go on with a new reference
  | proceed (next : Block)
  -- Send a block once, and keep the reference
  | interject (next : Block)
deriving DecidableEq

namespace Reaction

def text : Reaction → String
  | complete => "Complete"
  | abort => "Abort"
  | hardFail => "Hard failure"
  | resetDevice => "Reset device"
  | resetSession => "Reset session"
  | retransmit => "Retransmit"
  | proceed _ => "Continue"
  | interject _ => "Single shot"

def block? : Reaction → Option Block
  | proceed next | interject next => some next
  | _ => none

end Reaction

/-- What the rules see of a received frame. -/
inductive Sighting where
  -- The block of a frame that passed the check
  | block (b : Block)
  | refused (fault : BlockFault)
deriving DecidableEq

/-! ## Rules that several references share -/

/-- The card asks for smaller or larger blocks, and is told that it gets them. -/
def Transfer.resized (t : Transfer) (request : Block) : Option (Reaction × Transfer) :=
  (request.value?.bind Ifs.ofByte?).map fun ifs =>
    (.interject (.valued (.response .ifs) ifs.val), { t with ifs })

/-- The card sends a part of its response. The last part completes the exchange, any other is
    acknowledged. -/
def Transfer.receiving (t : Transfer) (seq more : Bool) (b : Block) : Reaction × Transfer :=
  (if more then .proceed (.plain (.ack !seq)) else .complete, t.taking b)

/-! ## Rules by reference -/

/-- After the last part of the payload, bit `seq`. The card responds, or asks for time or another
    block size, or seems to have missed something. -/
def Transfer.afterLast (t : Transfer) (seq : Bool) : Sighting → Option (Reaction × Transfer)
  | .refused fault => some (.interject (.plain (fault.report seq)), t)
  | .block b =>
    match b.pcb with
    | .info cardSeq more => some (t.receiving cardSeq more b)
    | .ready wanted _ _ =>
      some (if wanted = seq then .retransmit else .interject (.plain (.ack seq)), t)
    | .super .wtx false =>
      let factor := b.value?.getD 1
      some (.interject (.valued (.response .wtx) factor), { t with wait := .ofByte factor })
    | .super .ifs false => t.resized b
    | .super _ _ => none

/-- After a part of the payload that more follows, bit `seq`. The card asks for the next part or for
    this one again, for another block size, or gives the exchange up. -/
def Transfer.afterPart (t : Transfer) (seq : Bool) : Sighting → Option (Reaction × Transfer)
  | .refused fault => some (.interject (.plain (fault.report seq)), t)
  | .block b =>
    match b.pcb with
    | .ready wanted _ _ =>
      if wanted = seq then some (.retransmit, t)
      else if b.pcb.isPlainAck then some (.proceed (t.nextBlock wanted), t.advanced)
      else none
    | .super .ifs false => t.resized b
    | .super .abort false => some (.proceed (.plain (.response .abort)), t)
    | _ => none

/-- After an acknowledgement that expects bit `wanted`. The card sends that block, asks for another
    block size, or gives the exchange up. -/
def Transfer.afterAck (t : Transfer) (wanted : Bool) : Sighting → Option (Reaction × Transfer)
  | .refused _ => some (.retransmit, t)
  | .block b =>
    match b.pcb with
    | .info seq more => if seq = wanted then some (t.receiving seq more b) else none
    | .super .ifs false => t.resized b
    | .super .abort false => some (.proceed (.plain (.response .abort)), t)
    | _ => none

/-- After an acknowledgement that reports an error, nothing but the end of the exchange is
    expected. -/
def Transfer.afterReport (t : Transfer) : Sighting → Option (Reaction × Transfer)
  | .refused _ => some (.retransmit, t)
  | .block b =>
    if b.pcb = .request .abort then some (.proceed (.plain (.response .abort)), t) else none

/-- After a supervisory block, which is sent again until the card answers it in its own terms. -/
def Transfer.afterSuper (t : Transfer) (reference : Block) :
    Sighting → Option (Reaction × Transfer)
  | .refused _ =>
    match reference.pcb with
    | .super .resync false | .super .ifs false | .super .abort _ => some (.retransmit, t)
    | _ => none
  | .block b =>
    match reference.pcb, b.pcb with
    | .super .resync false, .super .resync true => some (.resetSession, t)
    | .super .ifs false, .super .ifs true =>
      if b.value? = reference.value? then some (.complete, t) else none
    | .super .abort false, .super .abort true => some (.complete, t)
    | .super .abort true, answer => if answer.isPlainAck then some (.abort, t) else none
    | _, _ => none

/-- What follows from a sighting after a reference, if there is a rule for it. -/
def Transfer.answer? (t : Transfer) (reference : Block) (seen : Sighting) :
    Option (Reaction × Transfer) :=
  match reference.pcb with
  | .info seq false => t.afterLast seq seen
  | .info seq true => t.afterPart seq seen
  | .ready wanted false false => t.afterAck wanted seen
  | .ready _ _ _ => t.afterReport seen
  | .super _ _ => t.afterSuper reference seen

/-! ## Judging a frame -/

/-- The outcome of looking at one received frame. -/
structure Verdict where
  reaction : Reaction
  transfer : Transfer
  sequence : Sequence
deriving DecidableEq

/-- So many refused frames call for a new start. -/
def resyncLimit : Nat := 3

/-- So many refused frames call for a reset of the card. -/
def resetLimit : Nat := 6

/-- What follows from refusing a frame. A request for a new start is not followed by another one;
    its repetitions are bounded like those of any block. -/
def Transfer.refuse (t : Transfer) (reference : Block) (fault : BlockFault) : Reaction × Transfer :=
  let t := t.refusing fault
  -- The larger limit comes first, since it implies the other.
  if resetLimit ≤ t.errors then (.resetDevice, t)
  else if resyncLimit ≤ t.errors ∧ reference.pcb ≠ .request .resync then
    (.proceed (.plain (.request .resync)), t)
  else
    (t.answer? reference (.refused fault)).getD
      (.hardFail, { t with complaint := some (.noRule reference.pcb) })

/-- Looks at a received frame after a reference. A block that no rule allows counts as refused, and
    the card's sequence bit is then the one before it. -/
def judge (t : Transfer) (s : Sequence) (reference : Block) (received : Frame) : Verdict :=
  let after := s.after reference.pcb received
  match s.fault? received with
  | some fault =>
    -- Refused by the check.
    let outcome := t.refuse reference fault
    ⟨outcome.1, outcome.2, after⟩
  | none =>
    match t.answer? reference (.block received.block) with
    | some outcome => ⟨outcome.1, outcome.2, after⟩
    | none =>
      -- Nothing is known about this block after this reference.
      let outcome := t.refuse reference .other
      ⟨outcome.1, outcome.2, { after with card := s.card }⟩

end CardLink
