import CardLink.Proofs.Calls
import CardLink.Proofs.Sessions
import Mathlib.Data.List.Basic

/-!
# How long the host waits

The card may ask for more time before it responds, and the host grants it in a block of its own. That
block stretches the wait that follows it and no other, although the factor is kept in the transfer, which
lives on through errors, repetitions and new starts. In a session, each poll is as long as the frame says
that was sent just before it (`waits_of_history`), and a frame that grants more time is sent only at once
after the card has asked for it.

`Exchange.IsTimed` is what makes this so: before every round, the factor is the one that the block about
to be sent grants, or else 1.
-/

namespace CardLink

/-! ## Waits -/

theorem WaitFactor.toNat_ofByte (byte : UInt8) : (ofByte byte).val.toNat = max 1 byte.toNat := by
  unfold ofByte
  split
  next positive => exact (Nat.max_eq_right positive).symm
  next zero => rw [Nat.eq_zero_of_not_pos zero]; rfl

namespace Options

/-- How long the host waits after sending a frame. If the frame grants the card more time, the wait is
    stretched by the factor in it, up to the longest duration (`Duration.nanos_scale`). -/
def waitAfter (o : Options) : Bytes → Duration
  | [_, pcbByte, _, factor, _] =>
    if Pcb.ofByte pcbByte = .response .wtx then o.bwt.scale (max 1 factor.toNat) else o.bwt
  | _ => o.bwt

theorem waitAfter_grant (o : Options) (factor : UInt8) :
    o.waitAfter (o.wire (.valued (.response .wtx) factor)) = o.bwt.scale (max 1 factor.toNat) :=
  if_pos (Pcb.ofByte_toByte _)

theorem waitAfter_of_ne (o : Options) {b : Block} (other : b.pcb ≠ .response .wtx) :
    o.waitAfter (o.wire b) = o.bwt := by
  unfold waitAfter
  split
  next pcbByte _ factor _ sent =>
    have pcb : Pcb.ofByte pcbByte = b.pcb := by
      simp only [wire, List.cons_append, List.cons.injEq] at sent
      rw [← sent.2.1, Pcb.ofByte_toByte]
    rw [pcb, if_neg other]
  next => rfl

end Options

/-! ## The factor of an exchange -/

namespace Exchange

variable {x y : Exchange} {r : Round Exchange} {past : List (Round Exchange)}

/-- The card has asked for more time in a round, and gets it. -/
structure Grants (r : Round Exchange) (x : Exchange) (factor : UInt8) : Prop where
  sent : ∃ seq, r.before.reference.pcb = .info seq false
  sound : r.received.isSound = true
  asked : r.received.block = .valued (.request .wtx) factor
  grant : x.outgoing = .valued (.response .wtx) factor

/-- What the next wait is due to. -/
inductive IsTimed (past : List (Round Exchange)) (x : Exchange) : Prop where
  | plain (other : x.outgoing.pcb ≠ .response .wtx) (wait : x.transfer.wait = .one)
  | granted {r factor} (last : past.getLast? = some r) (grants : Grants r x factor)
      (wait : x.transfer.wait = .ofByte factor)

theorem IsTimed.timeout (timed : IsTimed past x) (o : Options) :
    x.timeout o = o.waitAfter (o.wire x.outgoing) := by
  unfold Exchange.timeout Transfer.timeout
  cases timed with
  | plain other wait =>
    rw [wait, o.waitAfter_of_ne other]
    exact o.bwt.scale_one
  | granted _ grants wait => rw [wait, grants.grant, o.waitAfter_grant, WaitFactor.toNat_ofByte]

theorem wait_begun (purpose : Purpose) (t : Transfer) : (purpose.begun t).wait = t.wait := by
  cases purpose <;> rfl

theorem isTimed_of_interjects (past : List (Round Exchange)) (judges : x.Judges r) {next : Block}
    (interjects : x.Interjects r next) :
    IsTimed (past ++ [r]) { x.judged r.verdict with interjection := some next } := by
  cases interjects with
  | wait sent sound asked transfer =>
    refine .granted (List.getLast?_concat ..) ⟨⟨_, judges.before ▸ sent⟩, sound, asked, rfl⟩ ?_
    exact congrArg Transfer.wait transfer
  | report _ _ transfer => exact .plain nofun (congrArg Transfer.wait transfer)
  | nudge _ transfer => exact .plain nofun (congrArg Transfer.wait transfer)
  | resize _ _ _ transfer => exact .plain (by simp [outgoing, Block.valued]) (congrArg Transfer.wait transfer)

theorem isTimed_start (purpose : Purpose) (s : Sequence) (payload buffer : Bytes) :
    IsTimed [] (start purpose s (.into payload buffer)) :=
  .plain ((isRetried_start ..).ne_response (by decide)) (wait_begun ..)

theorem isKept_isTimed : IsKept fun past x => IsTimed past x ∧ x.reference.pcb.IsRetried := by
  rintro past x r y ⟨-, retried⟩ judges leads
  have retried' := isRetried_of_leads judges leads retried
  -- A block that is sent in between may grant time. A reference never does.
  have other : y.reference.pcb ≠ .response .wtx := retried'.ne_response (by decide)
  refine ⟨?_, retried'⟩
  cases leads with
  | again reaction => exact .plain other (judges.terms (by simp [reaction])).1
  | resync reaction => exact .plain other (judges.terms (by simp [reaction])).1
  | proceed reaction => exact .plain other (judges.terms (by simp [reaction])).1
  | interject reaction =>
    exact isTimed_of_interjects past judges (interjects_of_interject judges reaction)
  | restart => exact .plain other (wait_begun ..)
  | reset => exact .plain other (wait_begun ..)

theorem isTimed_of_split {σ : Type} [Backend σ] {purpose : Purpose} {s : Sequence}
    {payload buffer : Bytes} {o : Options} {n : Nat} {bus : σ} {rest : List (Round Exchange)}
    (split : ((start purpose s (.into payload buffer)).runFor o n bus).rounds = past ++ r :: rest) :
    IsTimed past r.before := by
  obtain ⟨y, ⟨timed, -⟩, judges⟩ :=
    isKept_isTimed.of_split ⟨isTimed_start .., isRetried_start ..⟩ split
  rwa [judges.before]

end Exchange

/-! ## Sessions -/

namespace Session

variable {σ : Type} [Backend σ]

/-- The dialogue of an operation, the timeouts being those that the frames call for. -/
theorem dialogue_perform (s : Session (Traced σ)) (op : Operation) :
    (s.perform op).2.backend.dialogue = s.backend.dialogue ++ (s.rounds op).flatMap fun r =>
      let sent := s.options.wire r.before.outgoing
      [.transmit sent true, .poll s.options.host (s.options.waitAfter sent) false] := by
  obtain ⟨purpose, payload, buffer, rounds, -, bus⟩ := s.exists_exchange op
  rw [bus, Exchange.run, Exchange.dialogue_runFor, rounds]
  congr 1
  refine List.flatMap_congr fun r member => ?_
  obtain ⟨past, rest, split⟩ := List.append_of_mem member
  rw [Exchange.turn, (Exchange.isTimed_of_split split).timeout]

/-- How a session waits, whatever operations are performed. -/
structure Waits (s : Session (Traced σ)) (ops : List Operation) : Prop where
  -- But for its reads, the session does nothing but send one frame after the other, and wait after each
  -- of them for as long as it says
  dialogue : (s.after ops).backend.dialogue = s.backend.dialogue ++ (s.history ops).flatMap fun r =>
    let sent := s.options.wire r.before.outgoing
    [.transmit sent true, .poll s.options.host (s.options.waitAfter sent) false]
  -- A frame that grants more time answers the one received before it, a sound request for just that
  granted : ∀ past r rest, s.history ops = past ++ r :: rest →
    r.before.outgoing.pcb = .response .wtx → ∃ last ∈ past.getLast?, ∃ factor,
      Exchange.Grants last r.before factor

/-- In a session on any bus, a wait is stretched once for each time the card asks for it, and by what the
    card asks for. All other waits are of the agreed length. -/
theorem waits_of_history (s : Session (Traced σ)) (ops : List Operation) : s.Waits ops := by
  refine ⟨?_, fun past r rest split grant => ?_⟩
  · induction ops generalizing s with
    | nil => exact (List.append_nil _).symm
    | cons op ops ih =>
      rw [after, ih, dialogue_perform, history, List.flatMap_append, List.append_assoc]
      rfl
  · obtain ⟨earlier, op, within, later, rounds, rfl⟩ := s.exists_rounds_of_history ops split
    obtain ⟨purpose, payload, buffer, same, -⟩ := (s.after earlier).exists_exchange op
    rw [same] at rounds
    cases Exchange.isTimed_of_split rounds with
    | plain other => exact absurd grant other
    | granted last grants =>
      refine ⟨_, ?_, _, grants⟩
      rw [Option.mem_def, List.getLast?_append, last]
      rfl

example :
    let card := ScriptedCard.ofReplies [.frame (Frame.wire 0xA5 (.request .wtx) [5]),
      .frame (Frame.wire 0xA5 (.info false false) [9]), .frame (Frame.wire 0xA5 (.info true false) [9])]
    let s : Session ScriptedCard := ⟨card, card.settings, .fresh, none⟩
    (s.after [.transceive [1] 2, .transceive [2] 2]).backend.polls =
      [.ofMillis 10, .ofMillis 50, .ofMillis 10] := by
  decide +kernel

end Session

end CardLink
