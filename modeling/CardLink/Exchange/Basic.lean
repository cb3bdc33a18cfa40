import CardLink.Exchange.Course
import CardLink.Options.Basic

/-!
# Exchanges

One exchange with a card: the host sends a block and awaits an answer, round after round, until the
exchange has succeeded or failed. This module holds the state between two rounds and how it changes,
block by block; the rounds themselves are in `CardLink.Exchange.Run`, and the buffers in which the host
keeps its blocks in `CardLink.Host`.
-/

namespace CardLink

/-- What an exchange is for. -/
inductive Purpose where
  -- Send a payload and receive a response
  | transceive
  -- Announce the largest information field that the host takes
  | negotiateIfs (ifs : Ifs)
  -- Ask the card to give up a chain
  | abort
deriving DecidableEq

def Purpose.firstBlock (purpose : Purpose) (s : Sequence) (t : Transfer) : Block :=
  match purpose with
  | transceive => t.nextBlock s.next
  | negotiateIfs ifs => .valued (.request .ifs) ifs.val
  | abort => .plain (.request .abort)

def Purpose.begun (purpose : Purpose) (t : Transfer) : Transfer :=
  match purpose with
  | transceive => t.advanced
  | negotiateIfs _ | abort => t

/-- An exchange between two rounds. -/
structure Exchange where
  purpose : Purpose
  sequence : Sequence
  transfer : Transfer
  -- The block that an answer is awaited for
  reference : Block
  -- A block to send once in its place
  interjection : Option Block := none
  wasReset : Bool := false
deriving DecidableEq

/-- How often one block is sent again. -/
def resendLimit : Nat := 3

def Transfer.timeout (t : Transfer) (o : Options) : Duration := o.bwt.scale t.wait.val.toNat

/-- The end of a transfer that can not go on, for what went wrong last. -/
def Transfer.givenUp (t : Transfer) : Ending × Transfer :=
  let reason := (t.complaint.map Complaint.text).getD "no recovery path"
  (.failed (.hardFail reason), { t with complaint := none })

def Transfer.resending (t : Transfer) : Transfer := { t with resends := t.resends + 1 }

/-- The failure to agree on a new start. -/
def Ending.unanswered : Ending := .failed (.hardFail "no response to RESYNC")

namespace Exchange

/-! ## Sending -/

def start (purpose : Purpose) (s : Sequence) (t : Transfer) : Exchange where
  purpose
  sequence := s
  transfer := purpose.begun t
  reference := purpose.firstBlock s t

/-- The exchange begun anew, with fresh sequence bits and nothing sent or received. -/
def restarted (x : Exchange) : Exchange :=
  { start x.purpose .fresh x.transfer.rewound with wasReset := x.wasReset }

def outgoing (x : Exchange) : Block := x.interjection.getD x.reference

def timeout (x : Exchange) (o : Options) : Duration := x.transfer.timeout o

def referring (x : Exchange) (reference : Block) : Exchange :=
  { x with reference, transfer := x.transfer.progressed }

/-! ## Going on -/

/-- Sends the reference again, if it has not been sent too often. After that a new start is asked
    for, and if it was the request for one that got no answer, the exchange has failed. -/
def resend (x : Exchange) : Step Exchange :=
  if x.transfer.resends < resendLimit then .going { x with transfer := x.transfer.resending }
  else if x.reference.pcb = .request .resync then .ended .unanswered x
  else .going (x.referring (.plain (.request .resync)))

def giveUp (x : Exchange) : Step Exchange :=
  .ended x.transfer.givenUp.1 { x with transfer := x.transfer.givenUp.2 }

def judged (x : Exchange) (v : Verdict) : Exchange :=
  { x with sequence := v.sequence, transfer := v.transfer, interjection := none }

end Exchange

end CardLink
