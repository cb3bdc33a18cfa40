import CardLink.Exchange.Basic
import CardLink.Host.Buffers

/-!
# The host in an exchange

What the host keeps in memory while it carries out an exchange: the data of the transfer, the
sequence bits, and two buffers for its blocks. A block is prepared in the buffer beside the reference,
whose header has been cleared before; a new start builds the first block again in a blank buffer.
-/

namespace CardLink

/-- The host between two rounds. -/
structure Host where
  purpose : Purpose
  sequence : Sequence
  transfer : Transfer
  buffers : Buffers
  -- The block beside the reference is to be sent once in its place
  interjecting : Bool := false
  wasReset : Bool := false
deriving DecidableEq

namespace Host

/-! ## Starting -/

def start (purpose : Purpose) (s : Sequence) (t : Transfer) : Host where
  purpose
  sequence := s
  transfer := purpose.begun t
  buffers := { left := (purpose.firstBlock s t).frame }

/-- The host begun anew, with fresh sequence bits and nothing sent or received. Only the buffer of
    the reference is blank again. -/
def restarted (h : Host) : Host :=
  { h with
    sequence := .fresh
    transfer := h.purpose.begun h.transfer.rewound
    buffers := h.buffers.withReference (h.purpose.firstBlock .fresh h.transfer.rewound).frame
    interjecting := false }

/-! ## Sending -/

def outgoing (h : Host) : Frame := if h.interjecting then h.buffers.spare else h.buffers.reference

def timeout (h : Host) (o : Options) : Duration := h.transfer.timeout o

/-- The buffers once the frame of the round was sent. It stays as it went over the wire, and the
    header beside the reference is cleared for the next block. -/
def sent (h : Host) (o : Options) : Buffers :=
  let buffers :=
    if h.interjecting then h.buffers.withSpare (o.outbound h.buffers.spare)
    else h.buffers.withReference (o.outbound h.buffers.reference)
  buffers.withSpare buffers.spare.withoutHeader

/-! ## Going on -/

/-- The host once a verdict was reached, before it is acted on: the frame of the round was sent, and
    the block of the reaction is prepared beside the reference. -/
def judged (h : Host) (o : Options) (v : Verdict) : Host :=
  { h with
    sequence := v.sequence
    transfer := v.transfer
    buffers := (h.sent o).withSpare (v.reaction.prepare (h.sent o).spare)
    interjecting := false }

/-- The host with the block beside the reference as its new reference, and its counters at zero. -/
def proceeding (h : Host) : Host :=
  { h with buffers := h.buffers.swapped, transfer := h.transfer.progressed }

/-- Sends the reference again, if it has not been sent too often. After that a new start is asked
    for, in a blank buffer, and if it was the request for one that got no answer, the exchange has
    failed. -/
def resend (h : Host) : Step Host :=
  if h.transfer.resends < resendLimit then .going { h with transfer := h.transfer.resending }
  else if h.buffers.reference.pcb = .request .resync then .ended .unanswered h
  else
    .going { h with buffers := h.buffers.withSpare (Block.plain (.request .resync)).frame }.proceeding

def giveUp (h : Host) : Step Host :=
  .ended h.transfer.givenUp.1 { h with transfer := h.transfer.givenUp.2 }

end Host

end CardLink
