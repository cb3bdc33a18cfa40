import CardLink.Proofs.Receipts
import CardLink.Proofs.Refinement
import CardLink.Proofs.Scripts
import CardLink.Proofs.Stretches

/-!
# A new start forgets everything

An exchange that is begun anew, because the card has agreed to a new start or has been reset, goes on
like a fresh one (`fresh_of_restart`). Nothing of the attempt that was given up shows in what follows:
not the payload that was sent, the block size or the wait that were agreed on, the counters, what the
two buffers of the host and the buffer of the response still hold, or that the card was reset.

Most of this is set back by the new start. Three things are not, and no round looks at them: the bytes
that lie behind the response (`Transfer.Alike`), whatever the host's buffers do not show
(`Host.view`), and the note that the card was reset, which matters only to a second reset. There is
none, since a steady exchange never gets to one.
-/

namespace CardLink

/-! ## Transfers with different buffers -/

/-- Two transfers differ in nothing but what lies behind the response in their buffers. -/
def Transfer.Alike (t t' : Transfer) : Prop :=
  ∃ buffer, t' = { t with buffer } ∧ buffer.length = t.buffer.length ∧
    buffer.take t.written = t.buffer.take t.written

namespace Transfer

variable {t t' u : Transfer} {reference : Block} {seen : Sighting} {reaction : Reaction}

theorem Alike.symm (alike : t.Alike t') : t'.Alike t := by
  obtain ⟨buffer, rfl, length, response⟩ := alike
  exact ⟨t.buffer, rfl, length.symm, response.symm⟩

theorem Alike.response (alike : t.Alike t') : t.response = t'.response := by
  obtain ⟨buffer, rfl, -, response⟩ := alike
  exact response.symm

/-- Before anything was received, buffers of the same size are as good as each other. -/
theorem alike_of_unwritten {buffer : Bytes} (unwritten : t.written = 0)
    (length : buffer.length = t.buffer.length) : t.Alike { t with buffer } := by
  refine ⟨buffer, rfl, length, ?_⟩
  rw [unwritten, List.take_zero, List.take_zero]

/-- Changes that have nothing to do with the response leave alike transfers alike. -/
theorem Alike.map (alike : t.Alike t') (f : Transfer → Transfer) (apart : IsApart f) :
    (f t).Alike (f t') := by
  obtain ⟨buffer, rfl, length, response⟩ := alike
  obtain ⟨keeps, same⟩ := apart.receipt t
  refine ⟨buffer, ?_, ?_, ?_⟩
  · have moved : f { t with buffer } = { f t with buffer, written := t.written } := apart t buffer t.written
    rw [moved, ← same]
  · rw [keeps]
    exact length
  · rw [keeps, same]
    exact response

/-- Alike transfers take the same part of a block, and put it behind the same response. -/
theorem Alike.taking (alike : t.Alike t') (b : Block) : (t.taking b).Alike (t'.taking b) := by
  obtain ⟨buffer, rfl, length, response⟩ := alike
  by_cases info : b.pcb.isInfo = true
  -- Buffers of one size have the same room behind responses of one length.
  · have room : ({ t with buffer } : Transfer).room = t.room := by
      rw [Transfer.room, Transfer.room, capacity, capacity, length]
    have whole := response_taking (t := t) info
    have whole' := response_taking (t := { t with buffer }) info
    have kept : ({ t with buffer } : Transfer).response = t.response := response
    rw [room, kept, ← whole] at whole'
    simp only [Transfer.taking, info, if_true, room] at whole' ⊢
    refine ⟨_, rfl, ?_, whole'⟩
    simp only [List.length_append, List.length_take, List.length_drop, length]
  · simp only [Transfer.taking, info]
    exact ⟨buffer, rfl, length, response⟩

theorem respected_alike : Respected Alike where
  control alike := by
    obtain ⟨_, rfl, -⟩ := alike
    rfl
  taking alike := alike.taking
  map alike f apart := alike.map f apart

end Transfer

/-! ## Verdicts -/

/-- Two verdicts differ in nothing but what lies behind the response. -/
structure Verdict.Alike (v v' : Verdict) : Prop where
  reaction : v.reaction = v'.reaction
  sequence : v.sequence = v'.sequence
  transfer : v.transfer.Alike v'.transfer

theorem Transfer.Alike.judge {t t' : Transfer} (alike : t.Alike t') (s : Sequence) (reference : Block)
    (received : Frame) : (judge t s reference received).Alike (judge t' s reference received) := by
  obtain ⟨reaction, sequence, transfer⟩ := respected_alike.judge alike s reference received
  exact ⟨reaction, sequence, transfer⟩

/-! ## Exchanges -/

namespace Exchange

/-- Two exchanges differ in nothing but what lies behind the response, and in whether the card was
    reset. -/
structure Alike (x y : Exchange) : Prop where
  purpose : x.purpose = y.purpose
  sequence : x.sequence = y.sequence
  transfer : x.transfer.Alike y.transfer
  reference : x.reference = y.reference
  interjection : x.interjection = y.interjection

variable {σ : Type} [Backend σ] {x y : Exchange} {v v' : Verdict}

theorem Alike.outgoing (alike : x.Alike y) : x.outgoing = y.outgoing := by
  rw [Exchange.outgoing, Exchange.outgoing, alike.interjection, alike.reference]

theorem Alike.timeout (alike : x.Alike y) (o : Options) : x.timeout o = y.timeout o := by
  obtain ⟨buffer, transfer, -⟩ := alike.transfer
  rw [Exchange.timeout, Exchange.timeout, transfer]
  rfl

theorem Alike.judged (alike : x.Alike y) (verdicts : v.Alike v') :
    (x.judged v).Alike (y.judged v') :=
  ⟨alike.purpose, verdicts.sequence, verdicts.transfer, alike.reference, rfl⟩

theorem Alike.referring (alike : x.Alike y) (next : Block) :
    (x.referring next).Alike (y.referring next) :=
  ⟨alike.purpose, alike.sequence, alike.transfer.map Transfer.progressed fun _ _ _ => rfl, rfl,
    alike.interjection⟩

theorem alike_start (purpose : Purpose) (s : Sequence) {t t' : Transfer} (alike : t.Alike t') :
    (start purpose s t).Alike (start purpose s t') := by
  have advanced := alike.map Transfer.advanced fun _ _ _ => rfl
  cases purpose with
  | transceive =>
    refine ⟨rfl, rfl, advanced, ?_, rfl⟩
    obtain ⟨_, rfl, -⟩ := alike
    rfl
  | negotiateIfs ifs => exact ⟨rfl, rfl, alike, rfl, rfl⟩
  | abort => exact ⟨rfl, rfl, alike, rfl, rfl⟩

/-- What was written into the response is forgotten, but for the size of its buffer. -/
theorem alike_begun (purpose : Purpose) (s : Sequence) (payload : Bytes) {buffer blank : Bytes}
    (size : blank.length = buffer.length) (wasReset : Bool) :
    ({ start purpose s (.into payload buffer) with wasReset } : Exchange).Alike
      (start purpose s (.into payload blank)) := by
  have unwritten : (Transfer.into payload buffer).Alike (.into payload blank) :=
    Transfer.alike_of_unwritten rfl size
  have started := alike_start purpose s unwritten
  exact ⟨started.purpose, started.sequence, started.transfer, started.reference, started.interjection⟩

theorem Alike.restarted (alike : x.Alike y) : x.restarted.Alike y.restarted := by
  obtain ⟨buffer, transfer, length, -⟩ := alike.transfer
  have again := alike_begun x.purpose .fresh x.transfer.payload length x.wasReset
  rw [Exchange.restarted, Exchange.restarted, ← alike.purpose, transfer]
  exact ⟨again.purpose, again.sequence, again.transfer, again.reference, again.interjection⟩

theorem Alike.resend (alike : x.Alike y) : Step.Alike Alike x.resend y.resend := by
  have resends : y.transfer.resends = x.transfer.resends := by
    obtain ⟨_, transfer, -⟩ := alike.transfer
    rw [transfer]
  have sent : y.reference.pcb = x.reference.pcb := by rw [alike.reference]
  unfold Exchange.resend
  rw [resends, sent]
  split
  · exact .going ⟨alike.purpose, alike.sequence,
      alike.transfer.map Transfer.resending fun _ _ _ => rfl, alike.reference, alike.interjection⟩
  split
  · exact .ended .unanswered alike
  · exact .going (alike.referring _)

theorem Alike.giveUp (alike : x.Alike y) : Step.Alike Alike x.giveUp y.giveUp := by
  have ending : y.transfer.givenUp.1 = x.transfer.givenUp.1 := by
    obtain ⟨_, transfer, -⟩ := alike.transfer
    rw [transfer]
    rfl
  unfold Exchange.giveUp
  rw [ending]
  exact .ended _ ⟨alike.purpose, alike.sequence,
    alike.transfer.map (fun t => t.givenUp.2) fun _ _ _ => rfl, alike.reference,
    alike.interjection⟩

/-- Alike exchanges act alike on alike verdicts, unless the card is to be reset. -/
theorem Alike.follow (alike : x.Alike y) (verdicts : v.Alike v') (noReset : v.reaction ≠ .resetDevice)
    (bus : σ) : Step.Alike Alike (x.follow v bus).1 (y.follow v' bus).1 ∧
      (x.follow v bus).2 = (y.follow v' bus).2 := by
  have judged := alike.judged verdicts
  have response : (x.judged v).transfer.response = (y.judged v').transfer.response :=
    verdicts.transfer.response
  unfold Exchange.follow
  rw [← verdicts.reaction]
  cases reaction : v.reaction with
  | complete =>
    simp only [response]
    exact ⟨.ended _ judged, trivial⟩
  | abort => exact ⟨.ended _ judged, rfl⟩
  | hardFail => exact ⟨judged.giveUp, rfl⟩
  -- Only here does it matter whether the card was reset before.
  | resetDevice => exact absurd reaction noReset
  | resetSession => exact ⟨.going judged.restarted, rfl⟩
  | retransmit => exact ⟨judged.resend, rfl⟩
  | proceed next => exact ⟨.going (judged.referring next), rfl⟩
  | interject next =>
    exact ⟨.going ⟨judged.purpose, judged.sequence, judged.transfer, judged.reference, rfl⟩, rfl⟩

theorem Alike.converse (alike : x.Alike y) (o : Options) (bus : σ) :
    x.converse o bus = y.converse o bus := by
  rw [Exchange.converse, Exchange.converse, alike.timeout, alike.outgoing]

/-- In a round, a steady exchange does not care about what makes alike ones different. -/
theorem Alike.round (steady : x.IsSteady) (alike : x.Alike y) (o : Options) (bus : σ) :
    (round o x bus).1.received = (round o y bus).1.received ∧
      (round o x bus).1.verdict.Alike (round o y bus).1.verdict ∧
      Step.Alike Alike (round o x bus).2.1 (round o y bus).2.1 ∧
      (round o x bus).2.2 = (round o y bus).2.2 := by
  have waited := alike.transfer.map Transfer.waited fun _ _ _ => rfl
  have verdicts := waited.judge x.sequence x.reference (x.converse o bus).1
  have noReset := steady.reaction_ne_resetDevice (r := (Exchange.round o x bus).1) ⟨rfl, judged_judge ..⟩
  unfold Exchange.round
  rw [← alike.converse o bus, ← alike.sequence, ← alike.reference]
  exact ⟨rfl, verdicts, alike.follow verdicts noReset _⟩

/-- Whichever way it came about, an exchange that was begun anew is like a fresh one. -/
theorem Leads.alike_fresh {purpose : Purpose} {payload : Bytes} {capacity : Nat} (leads : x.Leads v y)
    (settled : (x.judged v).Settled purpose payload capacity)
    (restart : v.reaction = .resetSession ∨ v.reaction = .resetDevice) {blank : Bytes}
    (size : blank.length = capacity) :
    y.Alike (start purpose .fresh (.into payload blank)) ∧ y.IsSteady := by
  have size' : blank.length = (x.judged v).transfer.buffer.length := size.trans settled.capacity.symm
  cases leads with
  | restart =>
    refine ⟨?_, isSteady_restarted _⟩
    rw [settled.restarted_eq]
    exact alike_begun purpose .fresh payload size' _
  | reset =>
    have settled' : Settled purpose payload capacity { x.judged v with wasReset := true } :=
      ⟨settled.purpose, settled.payload, settled.capacity⟩
    refine ⟨?_, isSteady_restarted _⟩
    rw [settled'.restarted_eq]
    exact alike_begun purpose .fresh payload size' _
  | _ => simp_all

end Exchange

/-! ## Hosts -/

namespace Host

/-- What a round shows to somebody who watches the bus and the host's decisions. -/
structure Shown where
  sent : Bytes
  timeout : Duration
  received : Frame
  reaction : Reaction
deriving DecidableEq

def shown (o : Options) (r : Round Host) : Shown where
  sent := (o.outbound r.before.outgoing).bytes
  timeout := r.before.timeout o
  received := r.received
  reaction := r.verdict.reaction

/-- Two hosts are in exchanges that differ in nothing that matters. -/
def Alike (h h' : Host) : Prop := h.view.Alike h'.view

variable {σ : Type} [Backend σ] {o : Options}

theorem bytes_outbound_of_alike {h h' : Host} (ready : h.IsReady) (ready' : h'.IsReady)
    (alike : h.Alike h') : (o.outbound h.outgoing).bytes = (o.outbound h'.outgoing).bytes := by
  rw [o.bytes_outbound (isCanonical_outgoing ready), o.bytes_outbound (isCanonical_outgoing ready'),
    block_outgoing, block_outgoing, Exchange.Alike.outgoing alike]

/-- A round of a host that leads on is one of its exchange. -/
theorem leads_of_round {h next : Host} {r : Round Host} {bus bus' : σ} (ready : h.IsReady)
    (leads : round o h bus = (r, .going next, bus')) :
    h.view.Judges (r.map view) ∧ h.view.Leads r.verdict next.view := by
  have seen := (simulates o).same h bus ready
  rw [leads] at seen
  exact Exchange.leads_of_round seen

/-- A host does not care about what its buffers hold beside the blocks that it sends, about what lies
    behind the response, or whether the card was reset. -/
theorem ignores (o : Options) : Course.Ignores (σ := σ) Alike (fun h => h.IsReady ∧ h.view.IsSteady)
    (shown o) (round o) where
  shows {h h'} bus good good' alike := by
    obtain ⟨received, verdicts, -, -⟩ := Exchange.Alike.round good.2 alike o bus
    rw [(simulates o).same h bus good.1, (simulates o).same h' bus good'.1] at received verdicts
    have sent := bytes_outbound_of_alike (o := o) good.1 good'.1 alike
    have timeout : h.timeout o = h'.timeout o := Exchange.Alike.timeout alike o
    have reaction : (round o h bus).1.verdict.reaction = (round o h' bus).1.verdict.reaction :=
      verdicts.reaction
    rw [shown, shown, Shown.mk.injEq]
    exact ⟨sent, timeout, received, reaction⟩
  step {h h'} bus good good' alike := by
    obtain ⟨-, -, steps, buses⟩ := Exchange.Alike.round good.2 alike o bus
    rw [(simulates o).same h bus good.1, (simulates o).same h' bus good'.1] at steps buses
    have both := Step.alike_of_map view steps
    exact ⟨both, buses⟩
  stays {h r next bus bus'} good leads := by
    obtain ⟨judges, leads'⟩ := leads_of_round good.1 leads
    exact ⟨(simulates o).stays good.1 leads, good.2.leads judges leads'⟩

/-! ## New starts -/

/-- Rounds after which an exchange that goes on is begun anew: the host had asked for a new start and
    the card has agreed to it, or the card is to be reset. -/
def Restarts (r : Round Host) : Prop :=
  (r.before.buffers.reference.pcb = .request .resync ∧ r.received.pcb = .response .resync ∧
    r.before.transfer.waited.refusal? r.before.sequence r.before.buffers.reference.block r.received =
      none) ∨ r.verdict.reaction = .resetDevice

instance (r : Round Host) : Decidable (Restarts r) := inferInstanceAs (Decidable (_ ∨ _))

/-- An exchange that is not settled after some rounds has got somewhere by them. -/
theorem open_of_unsettled {h : Host} (ready : h.IsReady) {n : Nat} {bus : σ}
    (unsettled : (h.runFor o n bus).ending = .unsettled) :
    Course.Open (round o) n h bus (h.runFor o n bus) := by
  rcases Course.upTo_cases (round o) n h bus with reached | ⟨past, y, bus', r, -, -, reached, last⟩
  · exact reached
  · have ready' : y.IsReady := reached.invariant (P := fun _ y _ => y.IsReady) ready (simulates o).stays
    have seen := (simulates o).same y bus' ready'
    rw [last] at seen
    exact absurd unsettled (Exchange.ends_of_round seen).2.ne_unsettled

theorem settled_of_reaches {purpose : Purpose} {s : Sequence} {t : Transfer} {bus bus' : σ}
    {rounds : List (Round Host)} {h : Host}
    (reached : Reaches (round o) (start purpose s t) bus rounds h bus') :
    h.IsReady ∧ h.view.Settled purpose t.payload t.capacity := by
  refine reached.invariant
    (P := fun _ h _ => h.IsReady ∧ h.view.Settled purpose t.payload t.capacity) ?_ ?_
  · rw [view_start]
    exact ⟨isReady_start purpose s t, Exchange.settled_start purpose s t⟩
  · rintro _ h r next bus bus' ⟨ready, settled⟩ leads
    obtain ⟨judges, leads'⟩ := leads_of_round ready leads
    exact ⟨(simulates o).stays ready leads, settled.leads judges leads'⟩

/-- After a new start a host is like a fresh one. -/
theorem alike_of_restarts {purpose : Purpose} {payload blank : Bytes} {capacity : Nat} {h next : Host}
    {r : Round Host} {bus bus' : σ} (ready : h.IsReady)
    (settled : h.view.Settled purpose payload capacity) (leads : round o h bus = (r, .going next, bus'))
    (restarts : Restarts r) (size : blank.length = capacity) :
    next.Alike (start purpose .fresh (.into payload blank)) ∧ next.view.IsSteady := by
  have before : r.before = h := by
    rw [← show (round o h bus).1 = r from congrArg Prod.fst leads]
    rfl
  obtain ⟨judges, leads'⟩ := leads_of_round ready leads
  have restart : r.verdict.reaction = .resetSession ∨ r.verdict.reaction = .resetDevice := by
    rcases restarts with agreed | reset
    · rw [before] at agreed
      exact .inl (Round.isRestart_iff.mp (judges.isRestart_iff.mpr agreed))
    · exact .inr reset
  rw [Alike, view_start]
  exact leads'.alike_fresh (settled.judged judges) restart size

/-- Once an exchange was begun anew, it goes on as a fresh one does that starts with the same payload
    and with any other buffer of the same size: what is sent, how long an answer is awaited, what is
    received and decided, how the exchange ends, the response, the sequence bits and the state of the
    bus are the same. -/
theorem fresh_of_restart (purpose : Purpose) (s : Sequence) (t : Transfer) (o : Options) {m : Nat}
    {bus : σ} (unsettled : ((start purpose s t).runFor o m bus).ending = .unsettled)
    (restarts : ∃ r ∈ ((start purpose s t).runFor o m bus).rounds.getLast?, Restarts r)
    (blank : Bytes) (size : blank.length = t.buffer.length) (n : Nat) :
    let past := (start purpose s t).runFor o m bus
    let whole := (start purpose s t).runFor o (m + n) bus
    let fresh := (start purpose .fresh (.into t.payload blank)).runFor o n past.bus
    whole.rounds.map (shown o) = past.rounds.map (shown o) ++ fresh.rounds.map (shown o) ∧
      whole.ending = fresh.ending ∧ whole.last.transfer.response = fresh.last.transfer.response ∧
      whole.last.sequence = fresh.last.sequence ∧ whole.bus = fresh.bus := by
  intro past whole fresh
  -- The last round of the past began the exchange anew.
  obtain ⟨reached, -, length⟩ := open_of_unsettled (isReady_start purpose s t) unsettled
  obtain ⟨r, isLast, restarts⟩ := restarts
  obtain ⟨before, h, bus', earlier, leads⟩ := reached.last isLast
  obtain ⟨ready, settled⟩ := settled_of_reaches earlier
  obtain ⟨alike, steady⟩ := alike_of_restarts ready settled leads restarts size
  have steady' : (start purpose .fresh (.into t.payload blank)).view.IsSteady := by
    rw [view_start]
    exact Exchange.isSteady_start ..
  -- From there on both hosts are alike, and steady enough not to care about the reset.
  have rest := Course.upTo_alike (ignores o) n ⟨(simulates o).stays ready leads, steady⟩
    ⟨isReady_start .., steady'⟩ alike past.bus
  have split := Course.upTo_of_reaches reached n
  rw [length] at split
  rw [show whole = _ from split]
  refine ⟨?_, rest.ending, rest.last.transfer.response, rest.last.sequence, rest.bus⟩
  rw [List.map_append]
  exact congrArg (past.rounds.map (shown o) ++ ·) rest.rounds

/-- The card that begins to respond, falls silent and agrees to start again is heard as if it had just
    been met. -/
theorem fresh_of_restart_restarting :
    let t : Transfer := .into [7] [0, 0]
    let past := (start .transceive .fresh t).runFor {} 5 ScriptedCard.restarting
    let whole := (start .transceive .fresh t).runFor {} (5 + 2) ScriptedCard.restarting
    let fresh := (start .transceive .fresh (.into t.payload [3, 4])).runFor {} 2 past.bus
    past.ending = .unsettled ∧ (∃ r ∈ past.rounds.getLast?, Restarts r) ∧
      ([3, 4] : Bytes).length = t.buffer.length ∧
      whole.rounds.map (shown {}) = past.rounds.map (shown {}) ++ fresh.rounds.map (shown {}) ∧
      whole.ending = fresh.ending ∧ whole.last.transfer.response = fresh.last.transfer.response ∧
      whole.last.sequence = fresh.last.sequence ∧ whole.bus = fresh.bus :=
  have unsettled : ((start .transceive .fresh (.into [7] [0, 0])).runFor {} 5
      ScriptedCard.restarting).ending = .unsettled := by decide +kernel
  have restarts : ∃ r ∈ ((start .transceive .fresh (.into [7] [0, 0])).runFor {} 5
      ScriptedCard.restarting).rounds.getLast?, Restarts r := by decide +kernel
  ⟨unsettled, restarts, rfl,
    fresh_of_restart .transceive .fresh (.into [7] [0, 0]) {} unsettled restarts [3, 4] rfl 2⟩

end Host

end CardLink
