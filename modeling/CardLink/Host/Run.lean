import CardLink.Exchange.Run
import CardLink.Host.Basic

/-!
# Rounds of the host

The rounds of `CardLink.Exchange.Run`, carried out in two buffers. A round sends the reference, or
once the block beside it, waits for a frame, judges it and acts on the verdict.

`Host.run` repeats rounds until the exchange ends, and keeps a record of each. The number of rounds is
bounded by what the backend can still answer, so that no run is left `unsettled` on a backend that
keeps its word.
-/

namespace CardLink.Host

variable {σ : Type} [Backend σ]

def converse (h : Host) (o : Options) (bus : σ) : Frame × σ :=
  Frame.converse o (h.timeout o) h.outgoing bus

/-- Resets the card and starts again. This is tried once in an exchange. -/
def resetCard (h : Host) (bus : σ) : Step Host × σ :=
  if h.wasReset then (.ended (.failed .deviceReset) h, bus)
  else
    match (Backend.reset : Bus σ Unit).run bus with
    | .ok _ bus => (.going { h with wasReset := true }.restarted, bus)
    | .error _ bus => (.ended (.failed .deviceReset) h, bus)

def follow (h : Host) (o : Options) (v : Verdict) (bus : σ) : Step Host × σ :=
  let h := h.judged o v
  match v.reaction with
  | .complete => (.ended (.completed h.transfer.response) h, bus)
  | .abort => (.ended (.failed .abort) h, bus)
  | .hardFail => (h.giveUp, bus)
  | .resetDevice => h.resetCard bus
  | .resetSession => (.going h.restarted, bus)
  | .retransmit => (h.resend, bus)
  | .proceed _ => (.going h.proceeding, bus)
  | .interject _ => (.going { h with interjecting := true }, bus)

/-- One round, what it leads to, and the bus after it. -/
def round (o : Options) (h : Host) (bus : σ) : Round Host × Step Host × σ :=
  let heard := h.converse o bus
  let verdict := judge h.transfer.waited h.sequence (h.sent o).reference.block heard.1
  (⟨h, heard.1, verdict⟩, h.follow o verdict heard.2)

/-- At most `n` rounds of an exchange. -/
def runFor (h : Host) (o : Options) (n : Nat) (bus : σ) : Course Host σ :=
  Course.upTo (round o) n h bus

def run (h : Host) (o : Options) (bus : σ) : Course Host σ :=
  h.runFor o (Backend.horizon bus) bus

end CardLink.Host
