import CardLink.Frame.Codec
import CardLink.Proofs.Calls
import CardLink.Proofs.Transmission

/-!
# What goes over the bus

A host hands one frame a round to its backend. The two buffers in which it builds its blocks are used
again and again, a header is cleared and not the bytes behind it, and what a buffer shows depends on LEN.
Still every frame is one that `Frame.encode` would have written (`transmissions_of_runFor`), with nothing
left in it of another block, and its block is one that belongs in an exchange (`Block.IsSendable`).

Since `bytes_outbound` says that a canonical frame goes over the wire as its block does, the blocks are
what is left to look at: the reference and the block that is interjected are sendable after every round.
-/

namespace CardLink

/-! ## Sendable blocks -/

/-- The blocks that an exchange may send to have its payload sent. -/
inductive Block.IsSendable (payload : Bytes) : Block → Prop where
  -- A part of the payload, which is empty only if there is no payload
  | info {b : Block} {seq more} (pcb : b.pcb = .info seq more) (part : b.inf <:+: payload)
      (whole : b.inf = [] → payload = []) : IsSendable payload b
  -- A receive-ready block that reports one error at most
  | ready {seq other parity} (few : (other && parity) = false) :
      IsSendable payload (.plain (.ready seq other parity))
  | resync : IsSendable payload (.plain (.request .resync))
  | abort {response} : IsSendable payload (.plain (.super .abort response))
  | ifs {response} (ifs : Ifs) : IsSendable payload (.valued (.super .ifs response) ifs.val)
  | wtx (factor : UInt8) : IsSendable payload (.valued (.response .wtx) factor)

theorem Ifs.toNat_ne_zero (ifs : Ifs) : ifs.toNat ≠ 0 := Nat.ne_of_gt ifs.pos

theorem Transfer.isSendable_nextBlock {t : Transfer} (seq : Bool) (more : t.pending = [] → t.payload = []) :
    (t.nextBlock seq).IsSendable t.payload := by
  refine .info rfl ?_ fun none => more ?_
  · exact (List.take_prefix ..).isInfix.trans (List.drop_suffix ..).isInfix
  · exact (List.take_eq_nil_iff.mp none).resolve_left t.ifs.toNat_ne_zero

/-- A block that says that more follows leaves something of the payload. -/
theorem Transfer.filled_lt_of_more {t : Transfer} {seq seq' : Bool}
    (more : (t.nextBlock seq).pcb = .info seq' true) : t.advanced.filled < t.payload.length := by
  rw [pcb_nextBlock, Pcb.info.injEq, decide_eq_true_eq] at more
  exact more.2

namespace Exchange

variable {x y : Exchange} {r : Round Exchange} {purpose : Purpose} {payload : Bytes} {capacity : Nat}

/-- What is sent once in place of the reference is a short block without anything of the payload. -/
theorem isSendable_of_interject (judges : x.Judges r) {next : Block}
    (reaction : r.verdict.reaction = .interject next) (payload : Bytes) : next.IsSendable payload := by
  cases interjects_of_interject judges reaction with
  | report fault => cases fault <;> exact .ready rfl
  | nudge => exact .ready rfl
  | wait => exact .wtx _
  | resize => exact .ifs _

/-- The blocks that an exchange is about to send are sendable. -/
structure IsProper (purpose : Purpose) (payload : Bytes) (capacity : Nat) (x : Exchange) : Prop where
  settled : Settled purpose payload capacity x
  reference : x.reference.IsSendable payload
  interjection : ∀ b, x.interjection = some b → b.IsSendable payload
  -- Something is left of the payload as long as the reference says so
  left : ∀ seq, x.reference.pcb = .info seq true → x.transfer.filled < payload.length

theorem IsProper.outgoing (proper : IsProper purpose payload capacity x) :
    x.outgoing.IsSendable payload := by
  unfold Exchange.outgoing
  cases interjection : x.interjection with
  | none => exact proper.reference
  | some b => exact proper.interjection b interjection

/-- Where an exchange is begun, its first block is sendable. -/
theorem isProper_begun (purpose : Purpose) (s : Sequence) (payload buffer : Bytes) (wasReset : Bool) :
    IsProper purpose payload buffer.length
      { start purpose s (.into payload buffer) with wasReset } := by
  refine ⟨settled_begun .., ?_, nofun, fun seq more => ?_⟩
  · cases purpose with
    | transceive => exact Transfer.isSendable_nextBlock (t := .into payload buffer) _ id
    | negotiateIfs ifs => exact .ifs ifs
    | abort => exact .abort
  · cases purpose with
    | transceive => exact Transfer.filled_lt_of_more (t := .into payload buffer) more
    | negotiateIfs ifs => cases more
    | abort => cases more

theorem isProper_restarted (settled : Settled purpose payload capacity x) :
    IsProper purpose payload capacity x.restarted := by
  rw [settled.restarted_eq, ← settled.capacity]
  exact isProper_begun ..

/-- Unless the next part of the payload is sent, as much of it is left as before. -/
theorem Judges.filled (judges : x.Judges r)
    (other : ∀ seq, r.verdict.reaction ≠ .proceed (x.transfer.nextBlock seq)) :
    r.verdict.transfer.filled = x.transfer.filled := by
  cases sends_of_judges judges with
  | next _ _ _ _ _ proceeds => exact absurd proceeds (other _)
  | nothing _ filled => exact filled

theorem IsProper.leads (proper : IsProper purpose payload capacity x) (judges : x.Judges r)
    (leads : x.Leads r.verdict y) : IsProper purpose payload capacity y := by
  have settled := proper.settled.leads judges leads
  have judged := proper.settled.judged judges
  -- As long as the reference stays, so does what is left.
  have left (other : ∀ seq, r.verdict.reaction ≠ .proceed (x.transfer.nextBlock seq)) (seq : Bool)
      (more : x.reference.pcb = .info seq true) : r.verdict.transfer.filled < payload.length := by
    rw [judges.filled other]
    exact proper.left seq more
  cases leads with
  | again reaction => exact ⟨settled, proper.reference, nofun, left (by simp [reaction])⟩
  | resync => exact ⟨settled, .resync, nofun, nofun⟩
  | interject reaction =>
    refine ⟨settled, proper.reference, fun b sent => ?_, left (by simp [reaction])⟩
    cases sent
    exact isSendable_of_interject judges reaction payload
  | restart => exact isProper_restarted judged
  | reset => exact isProper_restarted ⟨judged.purpose, judged.payload, judged.capacity⟩
  | proceed reaction =>
    cases refers_of_proceed judges reaction with
    | ack => exact ⟨settled, .ready rfl, nofun, nofun⟩
    | abort => exact ⟨settled, .abort, nofun, nofun⟩
    | resync => exact ⟨settled, .resync, nofun, nofun⟩
    | next _ sent _ transfer =>
      have payload' : x.transfer.payload = payload := proper.settled.payload
      subst payload'
      refine ⟨settled, ?_, nofun, fun seq more => ?_⟩
      · refine Transfer.isSendable_nextBlock _ fun none => ?_
        exact absurd (proper.left _ sent) (Nat.not_lt_of_le (List.drop_eq_nil_iff.mp none))
      · change r.verdict.transfer.filled < _
        rw [transfer]
        exact Transfer.filled_lt_of_more (t := x.transfer.waited) more

theorem isSendable_of_mem_rounds {σ : Type} [Backend σ] {s : Sequence} {buffer : Bytes} {o : Options}
    {n : Nat} {bus : σ} (member : r ∈ ((start purpose s (.into payload buffer)).runFor o n bus).rounds) :
    r.before.outgoing.IsSendable payload := by
  have kept : IsKept fun _ y => IsProper purpose payload buffer.length y :=
    fun _ _ _ _ => IsProper.leads
  obtain ⟨-, y, proper, judges⟩ :=
    kept.of_mem_rounds (isProper_begun purpose s payload buffer false) member
  rw [judges.before]
  exact proper.outgoing

end Exchange

/-! ## Recorded transmissions -/

/-- What was transmitted by a call, and whether it was all of a frame. -/
def Call.transmission? : Call → Option (Bytes × Bool)
  | transmit data complete => some (data, complete)
  | _ => none

namespace Traced

variable {σ : Type}

def transmissions (t : Traced σ) : List (Bytes × Bool) := t.calls.filterMap Call.transmission?

/-- What was transmitted is not to be found in the reads. -/
theorem transmissions_eq (t : Traced σ) :
    t.transmissions = t.dialogue.filterMap Call.transmission? := by
  rw [transmissions, dialogue, List.filterMap_filter]
  congr 1
  funext call
  cases call <;> rfl

end Traced

/-- Each round transmits the block that it sends, and nothing else. -/
theorem Exchange.transmissions_runFor {σ : Type} [Backend σ] (x : Exchange) (o : Options) (n : Nat)
    (t : Traced σ) : (x.runFor o n t).bus.transmissions = t.transmissions ++
      (x.runFor o n t).rounds.map fun r => (o.wire r.before.outgoing, true) := by
  rw [Traced.transmissions_eq, dialogue_runFor, List.filterMap_append, ← Traced.transmissions_eq,
    List.filterMap_flatMap, List.map_eq_flatMap]
  rfl

/-! ## Wire form -/

/-- A frame's bytes with the check that the options ask for. -/
def Options.rechecked (o : Options) (encoded : Bytes) : Bytes :=
  match o.convention with
  | none => encoded
  -- The check is computed as if the node address were zero
  | some .zeroAddressCheck => encoded.dropLast ++ [Bytes.check (0 :: encoded.dropLast.tail)]

theorem Options.wire_eq_rechecked (o : Options) (b : Block) :
    o.wire b = o.rechecked (Frame.wire o.node b.pcb b.inf) := by
  unfold wire rechecked Frame.wire
  cases o.convention with
  | none => rfl
  | some convention =>
    cases convention
    simp only [List.dropLast_concat]
    rfl

/-- A host hands one whole frame to its backend in each round. Each frame is what `Frame.encode` writes for
    a sendable block, with the check that the options ask for. -/
theorem Host.transmissions_of_runFor {σ : Type} [Backend σ] (purpose : Purpose) (s : Sequence)
    (payload buffer : Bytes) (o : Options) (n : Nat) (bus : σ) :
    let course := (start purpose s (.into payload buffer)).runFor o n (Traced.mk bus [])
    course.bus.transmissions =
        (course.rounds.map fun r => ((o.outbound r.before.outgoing).bytes, true)) ∧
      ∀ data complete, .transmit data complete ∈ course.bus.calls → complete = true ∧
        ∃ b encoded, Block.IsSendable payload b ∧ Frame.encode o.node b.pcb b.inf = .ok encoded ∧
          data = o.rechecked encoded := by
  intro course
  have seen : (Exchange.start purpose s (.into payload buffer)).runFor o n (Traced.mk bus []) =
      course.map view := runFor_start ..
  have sendable (r : Round Host) (member : r ∈ course.rounds) :
      r.before.view.outgoing.IsSendable payload := by
    have member' : r.map view ∈ ((Exchange.start purpose s (.into payload buffer)).runFor o n
        (Traced.mk bus [])).rounds := by
      rw [seen]
      exact List.mem_map_of_mem member
    exact Exchange.isSendable_of_mem_rounds member'
  have sent (r : Round Host) (member : r ∈ course.rounds) :
      (o.outbound r.before.outgoing).bytes = o.wire r.before.view.outgoing :=
    bytes_outbound_of_outgoing (isReady_of_mem_rounds (isReady_start ..) member) rfl
  have transmitted : course.bus.transmissions =
      course.rounds.map fun r => ((o.outbound r.before.outgoing).bytes, true) := by
    have transmitted := (Exchange.start purpose s (.into payload buffer)).transmissions_runFor o n
      (Traced.mk bus [])
    rw [seen] at transmitted
    change course.bus.transmissions = [] ++ (course.rounds.map (Round.map view)).map _ at transmitted
    rw [transmitted, List.nil_append, List.map_map]
    exact List.map_congr_left fun r member => by rw [sent r member]; rfl
  refine ⟨transmitted, fun data complete call => ?_⟩
  have member : (data, complete) ∈ course.bus.transmissions :=
    List.mem_filterMap.mpr ⟨_, call, rfl⟩
  rw [transmitted] at member
  obtain ⟨r, round, now⟩ := List.mem_map.mp member
  obtain ⟨rfl, rfl⟩ := Prod.mk.inj now
  refine ⟨rfl, r.before.view.outgoing, _, sendable r round, Frame.encode_block .., ?_⟩
  rw [sent r round, o.wire_eq_rechecked]

end CardLink
