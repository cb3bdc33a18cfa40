import CardLink.Exchange.Basic
import CardLink.Framing

/-!
# Rounds of an exchange

A round sends the reference, or a block interjected once, waits for a frame, judges it and acts on
the verdict. What fails on the bus counts as a frame that was never received.

`Exchange.run` repeats rounds until the exchange ends, and keeps a record of each. The number of
rounds is bounded by what the backend can still answer, so that no run is left `unsettled` on a
backend that keeps its word.

Here each block is put into a buffer of its own. `CardLink.Host` carries out the same rounds in two
buffers that are used again and again.
-/

namespace CardLink.Exchange

variable {σ : Type} [Backend σ]

/-! ## Rounds -/

def converse (x : Exchange) (o : Options) (bus : σ) : Frame × σ :=
  Frame.converse o (x.timeout o) x.outgoing.frame bus

/-- Resets the card and starts again. This is tried once in an exchange. -/
def resetCard (x : Exchange) (bus : σ) : Step Exchange × σ :=
  if x.wasReset then (.ended (.failed .deviceReset) x, bus)
  else
    match (Backend.reset : Bus σ Unit).run bus with
    | .ok _ bus => (.going { x with wasReset := true }.restarted, bus)
    | .error _ bus => (.ended (.failed .deviceReset) x, bus)

def follow (x : Exchange) (v : Verdict) (bus : σ) : Step Exchange × σ :=
  let x := x.judged v
  match v.reaction with
  | .complete => (.ended (.completed x.transfer.response) x, bus)
  | .abort => (.ended (.failed .abort) x, bus)
  | .hardFail => (x.giveUp, bus)
  | .resetDevice => x.resetCard bus
  | .resetSession => (.going x.restarted, bus)
  | .retransmit => (x.resend, bus)
  | .proceed next => (.going (x.referring next), bus)
  | .interject next => (.going { x with interjection := some next }, bus)

/-- One round, what it leads to, and the bus after it. -/
def round (o : Options) (x : Exchange) (bus : σ) : Round Exchange × Step Exchange × σ :=
  let heard := x.converse o bus
  let verdict := judge x.transfer.waited x.sequence x.reference heard.1
  (⟨x, heard.1, verdict⟩, x.follow verdict heard.2)

/-! ## Runs -/

/-- At most `n` rounds of an exchange. -/
def runFor (x : Exchange) (o : Options) (n : Nat) (bus : σ) : Course Exchange σ :=
  Course.upTo (round o) n x bus

def run (x : Exchange) (o : Options) (bus : σ) : Course Exchange σ :=
  x.runFor o (Backend.horizon bus) bus

end CardLink.Exchange
