import CardLink.Host.Run
import CardLink.Proofs.Buffering
import CardLink.Proofs.Courses

/-!
# The host carries out the exchange

`Host.view` reads off its two buffers which exchange a host is in: the block of the reference, and the
block beside it if it is to be interjected. Everything else that the buffers hold is lost in the view,
and `runFor_view` says that nothing depends on it: a host takes the rounds of the exchange that it
carries out, frame for frame and byte for byte.

This needs the frames that are going to be sent to be canonical (`IsReady`), as they are from the start
of an exchange on.
-/

namespace CardLink.Host

variable {σ : Type} [Backend σ]

def view (h : Host) : Exchange where
  purpose := h.purpose
  sequence := h.sequence
  transfer := h.transfer
  reference := h.buffers.reference.block
  interjection := if h.interjecting then some h.buffers.spare.block else none
  wasReset := h.wasReset

/-- The frames that a host is going to send are canonical. -/
structure IsReady (h : Host) : Prop where
  reference : h.buffers.reference.IsCanonical
  spare : h.interjecting = true → h.buffers.spare.IsCanonical

/-! ## Starting -/

theorem view_start (purpose : Purpose) (s : Sequence) (t : Transfer) :
    (start purpose s t).view = .start purpose s t := by
  have reference : (purpose.firstBlock s t).frame.block = purpose.firstBlock s t :=
    Frame.block_frame _
  simp only [view, start, Exchange.start, Buffers.reference, Bool.false_eq_true, if_false, reference]

theorem isReady_start (purpose : Purpose) (s : Sequence) (t : Transfer) :
    (start purpose s t).IsReady :=
  ⟨Frame.isCanonical_frame _, fun interjecting => by cases interjecting⟩

theorem view_restarted (h : Host) : h.restarted.view = h.view.restarted := by
  simp only [view, restarted, Exchange.restarted, Exchange.start, Buffers.reference_withReference,
    Frame.block_frame, Bool.false_eq_true, if_false]

theorem isReady_restarted (h : Host) : h.restarted.IsReady := by
  refine ⟨?_, fun interjecting => by cases interjecting⟩
  simp only [restarted, Buffers.reference_withReference]
  exact Frame.isCanonical_frame _

/-! ## Sending -/

theorem block_outgoing (h : Host) : h.outgoing.block = h.view.outgoing := by
  unfold outgoing view Exchange.outgoing
  cases h.interjecting <;> rfl

theorem isCanonical_outgoing {h : Host} (ready : h.IsReady) : h.outgoing.IsCanonical := by
  unfold outgoing
  split
  · exact ready.spare ‹_›
  · exact ready.reference

/-- A host sends what is sent in its exchange, and hears what is heard there. -/
theorem converse_view {h : Host} (ready : h.IsReady) (o : Options) (bus : σ) :
    h.view.converse o bus = h.converse o bus := by
  have sent : (o.outbound h.view.outgoing.frame).bytes = (o.outbound h.outgoing).bytes := by
    rw [o.bytes_outbound (Frame.isCanonical_frame _), o.bytes_outbound (isCanonical_outgoing ready),
      Frame.block_frame, block_outgoing]
  simp only [Exchange.converse, converse, Frame.converse, Frame.send, sent]
  rfl

theorem reference_sent (h : Host) (o : Options) : (h.sent o).reference =
    if h.interjecting then h.buffers.reference else o.outbound h.buffers.reference := by
  unfold sent
  split <;> simp

theorem block_reference_sent (h : Host) (o : Options) :
    (h.sent o).reference.block = h.buffers.reference.block := by
  rw [reference_sent]
  split
  · rfl
  · exact o.block_outbound _

theorem isCanonical_reference_sent {h : Host} (ready : h.IsReady) (o : Options) :
    (h.sent o).reference.IsCanonical := by
  rw [reference_sent]
  split
  · exact ready.reference
  · exact o.isCanonical_outbound ready.reference

/-! ## Going on -/

section Judged

variable (h : Host) (o : Options) (v : Verdict)

theorem view_judged : (h.judged o v).view = h.view.judged v := by
  simp only [view, judged, Exchange.judged, Buffers.reference_withSpare, block_reference_sent,
    Bool.false_eq_true, if_false]

theorem isReady_judged {h : Host} (ready : h.IsReady) : (h.judged o v).IsReady := by
  refine ⟨?_, fun interjecting => by cases interjecting⟩
  simp only [judged, Buffers.reference_withSpare]
  exact isCanonical_reference_sent ready o

theorem spare_judged {next : Block} (sends : v.reaction.block? = some next) :
    (h.judged o v).buffers.spare = (h.sent o).spare.prepared next := by
  simp only [judged, Buffers.spare_withSpare, Reaction.prepare, sends]

theorem block_spare_judged {next : Block} (sends : v.reaction.block? = some next) :
    (h.judged o v).buffers.spare.block = next := by
  rw [spare_judged h o v sends, Frame.block_prepared]

end Judged

theorem view_proceeding (h : Host) :
    h.proceeding.view = { h.view.referring h.buffers.spare.block with
      interjection := if h.interjecting then some h.buffers.reference.block else none } := by
  simp only [view, proceeding, Exchange.referring, Buffers.reference_swapped, Buffers.spare_swapped]

theorem isReady_proceeding {h : Host} (quiet : h.interjecting = false)
    (canonical : h.buffers.spare.IsCanonical) : h.proceeding.IsReady := by
  refine ⟨?_, fun interjecting => ?_⟩
  · simpa only [proceeding, Buffers.reference_swapped] using canonical
  · simp only [proceeding, quiet, Bool.false_eq_true] at interjecting

theorem view_resend (h : Host) (quiet : h.interjecting = false) :
    h.resend.map view = h.view.resend := by
  have reference : h.view.reference.pcb = h.buffers.reference.pcb := rfl
  have transfer : h.view.transfer = h.transfer := rfl
  unfold resend Exchange.resend
  rw [reference, transfer]
  by_cases few : h.transfer.resends < resendLimit
  · rw [if_pos few, if_pos few]
    rfl
  · rw [if_neg few, if_neg few]
    by_cases resync : h.buffers.reference.pcb = .request .resync
    · rw [if_pos resync, if_pos resync]
      rfl
    · rw [if_neg resync, if_neg resync, Step.map, view_proceeding]
      simp only [view, Exchange.referring, Buffers.spare_withSpare, Frame.block_frame, quiet,
        Bool.false_eq_true, if_false]

theorem view_resetCard (h : Host) (bus : σ) :
    ((h.resetCard bus).1.map view, (h.resetCard bus).2) = h.view.resetCard bus := by
  have wasReset : h.view.wasReset = h.wasReset := rfl
  unfold resetCard Exchange.resetCard
  rw [wasReset]
  by_cases again : h.wasReset = true
  · rw [if_pos again, if_pos again]
    rfl
  · rw [if_neg again, if_neg again]
    match (Backend.reset : Bus σ Unit).run bus with
    | .ok _ bus => simp only [Step.map, view_restarted]; rfl
    | .error _ bus => rfl

/-- A host acts on a verdict as its exchange does. -/
theorem follow_view (h : Host) (o : Options) (v : Verdict) (bus : σ) :
    h.view.follow v bus = ((h.follow o v bus).1.map view, (h.follow o v bus).2) := by
  have judged := view_judged h o v
  have quiet : (h.judged o v).interjecting = false := rfl
  unfold follow Exchange.follow
  simp only [← judged]
  -- The reactions that send a block differ in where it lies: it was prepared beside the reference.
  cases reaction : v.reaction with
  | complete => rfl
  | abort => rfl
  | hardFail => rfl
  | resetDevice => exact (view_resetCard _ bus).symm
  | resetSession => simp only [Step.map, view_restarted]
  | retransmit => simp only [← view_resend _ quiet]
  | proceed next =>
    have block := block_spare_judged h o v (show v.reaction.block? = some next by rw [reaction]; rfl)
    simp only [Step.map, view_proceeding, block, quiet]
    rfl
  | interject next =>
    have block := block_spare_judged h o v (show v.reaction.block? = some next by rw [reaction]; rfl)
    simp only [Step.map, view, if_true, block]

theorem isReady_follow {h next : Host} (ready : h.IsReady) {o : Options} {v : Verdict} {bus bus' : σ}
    (goes : h.follow o v bus = (.going next, bus')) : next.IsReady := by
  have judged := isReady_judged o v ready
  unfold follow at goes
  cases reaction : v.reaction with
  | complete => simp [reaction] at goes
  | abort => simp [reaction] at goes
  | hardFail => simp [reaction, giveUp] at goes
  | resetDevice =>
    simp only [reaction, resetCard] at goes
    split at goes
    · cases goes
    · split at goes
      · cases goes
        exact isReady_restarted _
      · cases goes
  | resetSession =>
    simp only [reaction] at goes
    cases goes
    exact isReady_restarted _
  | retransmit =>
    simp only [reaction, resend] at goes
    split at goes
    · cases goes
      exact ⟨judged.reference, judged.spare⟩
    · split at goes
      · cases goes
      · cases goes
        refine isReady_proceeding rfl ?_
        simp only [Buffers.spare_withSpare]
        exact Frame.isCanonical_frame _
  | proceed block =>
    simp only [reaction] at goes
    cases goes
    refine isReady_proceeding rfl ?_
    rw [spare_judged h o v (by rw [reaction]; rfl)]
    exact Frame.isCanonical_prepared _ block
  | interject block =>
    simp only [reaction] at goes
    cases goes
    refine ⟨judged.reference, fun _ => ?_⟩
    change (h.judged o v).buffers.spare.IsCanonical
    rw [spare_judged h o v (by rw [reaction]; rfl)]
    exact Frame.isCanonical_prepared _ block

/-! ## Rounds and runs -/

/-- The rounds of a host are those of its exchange. -/
theorem simulates (o : Options) :
    Course.Simulates (σ := σ) view IsReady (round o) (Exchange.round o) where
  same h bus ready := by
    simp only [Exchange.round, round, converse_view ready, block_reference_sent, follow_view h o]
    rfl
  stays ready next := by
    simp only [round, Prod.mk.injEq] at next
    exact isReady_follow ready next.2

theorem runFor_view {h : Host} (ready : h.IsReady) (o : Options) (n : Nat) (bus : σ) :
    h.view.runFor o n bus = (h.runFor o n bus).map view :=
  Course.upTo_map (simulates o) n ready bus

theorem runFor_start (purpose : Purpose) (s : Sequence) (t : Transfer) (o : Options) (n : Nat)
    (bus : σ) : (Exchange.start purpose s t).runFor o n bus =
      ((start purpose s t).runFor o n bus).map view := by
  rw [← view_start, runFor_view (isReady_start purpose s t)]

theorem isReady_of_mem_rounds {h : Host} (ready : h.IsReady) {o : Options} {n : Nat} {bus : σ} {r : Round Host}
    (member : r ∈ (h.runFor o n bus).rounds) : r.before.IsReady := by
  obtain ⟨y, bus', ready', rfl⟩ := Course.exists_of_mem_rounds (simulates o).stays ready member
  exact ready'

theorem bytes_outbound_of_outgoing {h : Host} (ready : h.IsReady) {o : Options} {b : Block}
    (outgoing : h.view.outgoing = b) : (o.outbound h.outgoing).bytes = o.wire b := by
  rw [o.bytes_outbound (isCanonical_outgoing ready), block_outgoing, outgoing]

section Run

variable (purpose : Purpose) (s : Sequence) (t : Transfer) (o : Options) (bus : σ)

theorem run_start :
    (Exchange.start purpose s t).run o bus = ((start purpose s t).run o bus).map view :=
  runFor_start ..

theorem rounds_run_start : ((Exchange.start purpose s t).run o bus).rounds =
    ((start purpose s t).run o bus).rounds.map (Round.map view) :=
  congrArg Course.rounds (run_start purpose s t o bus)

theorem ending_run_start :
    ((Exchange.start purpose s t).run o bus).ending = ((start purpose s t).run o bus).ending :=
  congrArg Course.ending (run_start purpose s t o bus)

theorem bus_run_start :
    ((Exchange.start purpose s t).run o bus).bus = ((start purpose s t).run o bus).bus :=
  congrArg Course.bus (run_start purpose s t o bus)

theorem taken_run_start {purpose : Purpose} {s : Sequence} {t : Transfer} {o : Options} {bus : σ}
    {i : Nat} {r : Round Host} (taken : ((start purpose s t).run o bus).rounds[i]? = some r) :
    ((Exchange.start purpose s t).run o bus).rounds[i]? = some (r.map view) := by
  rw [rounds_run_start, List.getElem?_map, taken]
  rfl

end Run

end CardLink.Host
