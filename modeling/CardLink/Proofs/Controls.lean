import CardLink.Proofs.Failures
import CardLink.Proofs.Sessions

/-!
# Asking something of the card

To announce a block size and to ask the card to give up a chain are exchanges of their own, which share
the rounds and the rules with those that send a payload. Nothing else happens in them
(`isolated_controls`): the host sends its request, and a request for a new start if that is not answered.
A proper answer to the request is all that ends them well, and a new start that the card does not agree
to is all that ends them otherwise.

The card may send anything in between, also parts of a response that would continue the last one. No rule
accepts those after a request (`Rule.of_control`), so the sequence bits of the session are what they were
before, unless both sides have started again.
-/

namespace CardLink

/-! ## Requests -/

/-- The requests that the host may have as its reference. -/
inductive Pcb.IsControl : Pcb → Prop where
  | resync : IsControl (.request .resync)
  | ifs : IsControl (.request .ifs)
  | abort : IsControl (.request .abort)

/-- The purposes that are served by one answer to one request. -/
inductive Purpose.Asks : Purpose → Block → Block → Prop where
  | ifs (ifs : Ifs) : Asks (.negotiateIfs ifs) (.valued (.request .ifs) ifs.val)
      (.valued (.response .ifs) ifs.val)
  | abort : Asks .abort (.plain (.request .abort)) (.plain (.response .abort))

theorem Purpose.Asks.firstBlock {purpose : Purpose} {request answer : Block}
    (asks : purpose.Asks request answer) (s : Sequence) (t : Transfer) :
    purpose.firstBlock s t = request := by
  cases asks <;> rfl

theorem Purpose.Asks.isControl {purpose : Purpose} {request answer : Block}
    (asks : purpose.Asks request answer) : request.pcb.IsControl := by
  cases asks with
  | ifs => exact .ifs
  | abort => exact .abort

theorem Pcb.IsControl.isInfo {pcb : Pcb} (control : pcb.IsControl) : pcb.isInfo = false := by
  cases control <;> rfl

theorem Pcb.IsControl.not_awaits {pcb : Pcb} (control : pcb.IsControl) {seq : Bool} :
    ¬pcb.AwaitsInfo seq := by
  intro awaits
  cases control <;> cases awaits

/-- After a request, an answer to it completes the exchange or begins it anew, and no other block is
    accepted. -/
theorem Transfer.Rule.of_control {t t' : Transfer} {reference b : Block} {reaction : Reaction}
    (rule : t.Rule reference (.block b) reaction t') (control : reference.pcb.IsControl) :
    b.pcb.isInfo = false ∧ (reaction = .complete ∨ reaction = .resetSession) := by
  cases rule with
  | last awaits => exact absurd awaits control.not_awaits
  | part awaits => exact absurd awaits control.not_awaits
  | restart _ resync => exact ⟨by rw [resync]; rfl, .inr rfl⟩
  | agreed _ ifs => exact ⟨by rw [ifs]; rfl, .inl rfl⟩
  | aborted _ abort => exact ⟨by rw [abort]; rfl, .inl rfl⟩
  | _ =>
    generalize reference.pcb = pcb at *
    cases control <;> simp_all [Pcb.isInfo, Pcb.isPlainAck]

/-! ## Answers -/

namespace Purpose.Asks

variable {purpose : Purpose} {request answer : Block} {t t' : Transfer} {s : Sequence} {received : Frame}

/-- A sound answer to a request passes the check. -/
theorem passed (asks : purpose.Asks request answer) (s : Sequence) (sound : received.isSound = true)
    (answered : received.block = answer) : s.fault? received = none := by
  rw [Sequence.fault?_eq_none_iff]
  cases asks with
  | ifs ifs =>
    obtain ⟨pcb, len, value⟩ := Frame.block_eq_valued_iff.mp answered
    have head : received.inf.head? = some ifs.val := value
    refine ⟨Frame.isAbsent_of_pcb_ne (by rw [pcb]; decide), sound, ?_⟩
    simp [Sequence.isWellFormed, pcb, len, head, ifs.ofByte?_val, Supervisory.hasValue]
  | abort =>
    obtain ⟨pcb, len⟩ := Frame.block_eq_plain_iff.mp answered
    refine ⟨Frame.isAbsent_of_pcb_ne (by rw [pcb]; decide), sound, ?_⟩
    simp [Sequence.isWellFormed, pcb, len, Supervisory.hasValue]

theorem rule (asks : purpose.Asks request answer) (t : Transfer) :
    t.Rule request (.block answer) .complete t := by
  cases asks with
  | ifs ifs => exact .agreed rfl rfl rfl
  | abort => exact .aborted rfl rfl

/-- No other block completes the exchange. -/
theorem block_of_rule (asks : purpose.Asks request answer)
    (rule : t.Rule request (.block received.block) .complete t')
    (wellFormed : s.isWellFormed received = true) : received.block = answer := by
  have not_awaits {seq : Bool} : ¬request.pcb.AwaitsInfo seq := asks.isControl.not_awaits
  cases asks with
  | ifs ifs =>
    cases rule with
    | last awaits => exact absurd awaits not_awaits
    | aborted sent => cases sent
    | agreed _ response same =>
      have pcb : received.pcb = .response .ifs := response
      refine Frame.block_eq_valued_iff.mpr ⟨pcb, ?_, same⟩
      simp only [Sequence.isWellFormed, pcb, Bool.and_eq_true, beq_iff_eq] at wellFormed
      exact wellFormed.1
  | abort =>
    cases rule with
    | last awaits => exact absurd awaits not_awaits
    | agreed sent => cases sent
    | aborted _ response =>
      have pcb : received.pcb = .response .abort := response
      refine Frame.block_eq_plain_iff.mpr ⟨pcb, ?_⟩
      simp only [Sequence.isWellFormed, pcb, Bool.and_eq_true, beq_iff_eq] at wellFormed
      exact wellFormed.1

end Purpose.Asks

namespace Exchange

variable {x y : Exchange} {r : Round Exchange} {purpose : Purpose} {request answer : Block}

/-- An exchange that asks for something is completed by a sound answer, and by nothing else. -/
theorem Judges.complete_iff (judges : x.Judges r) (asks : purpose.Asks request answer)
    (sent : x.reference = request ∨ x.reference = .plain (.request .resync)) :
    r.verdict.reaction = .complete ↔
      x.reference = request ∧ r.received.isSound = true ∧ r.received.block = answer := by
  have judged := judges.judged
  constructor
  · intro complete
    generalize r.verdict = v at judged complete
    cases judged with
    | refused _ recovers =>
      subst complete
      cases recovers with
      | rule _ _ rule => cases rule
    | accepted passed rule =>
      subst complete
      obtain ⟨-, sound, wellFormed⟩ := Sequence.fault?_eq_none_iff.mp passed
      rcases sent with rfl | resync
      · exact ⟨rfl, sound, asks.block_of_rule rule wellFormed⟩
      · cases rule.reaction_of_resync (congrArg Block.pcb resync)
  · rintro ⟨rfl, sound, rfl⟩
    rw [judged.eq_of_rule (asks.passed x.sequence sound rfl) (asks.rule _)]

/-- No verdict after a request moves a sequence bit. -/
theorem IsRegular.of_control (regular : x.IsRegular) (judges : x.Judges r)
    (control : x.reference.pcb.IsControl) : r.verdict.sequence = x.sequence ∧
      (r.verdict.reaction = .complete ∨ r.verdict.reaction = .resetSession ∨
        r.verdict.reaction = .retransmit ∨
        r.verdict.reaction = .proceed (.plain (.request .resync))) := by
  have answered : x.sequence.answered x.reference.pcb = x.sequence := by
    generalize x.reference.pcb = pcb at control
    cases control <;> rfl
  have judged := judges.judged
  have noReset := regular.steady.reaction_ne_resetDevice judges
  have noFailure := reaction_ne_hardFail regular.retried judges
  generalize r.verdict = v at judged noReset noFailure
  cases judged with
  | accepted _ rule =>
    obtain ⟨other, complete | restart⟩ := rule.of_control control
    all_goals
      have taken : x.sequence.taken r.received.pcb = x.sequence := by
        change r.received.pcb.isInfo = false at other
        cases pcb : r.received.pcb <;> simp_all [Sequence.taken, Pcb.isInfo]
      refine ⟨by rw [answered, taken], ?_⟩
    · exact .inl complete
    · exact .inr (.inl restart)
  | refused _ recovers =>
    refine ⟨?_, ?_⟩
    · simp [Sequence.noticed, answered]
    cases recovers with
    | reset => exact absurd rfl noReset
    | stuck => exact absurd rfl noFailure
    | resync => exact .inr (.inr (.inr rfl))
    | rule _ _ rule =>
      cases rule with
      | report sent =>
        have := control.isInfo
        rw [sent] at this
        cases this
      | «repeat» => exact .inr (.inr (.inl rfl))

/-- What is known of an exchange that asks for something, and of its rounds so far. -/
structure IsAsking (purpose : Purpose) (request : Block) (s : Sequence) (past : List (Round Exchange))
    (x : Exchange) : Prop where
  regular : x.IsRegular
  settled : Settled purpose [] 0 x
  reference : x.reference = request ∨ x.reference = .plain (.request .resync)
  quiet : x.interjection = none
  sequence : x.sequence = Round.origin s past

namespace IsAsking

variable {past : List (Round Exchange)} {s : Sequence}

theorem isControl (asking : IsAsking purpose request s past x) (asks : purpose.Asks request answer) :
    x.reference.pcb.IsControl := by
  rcases asking.reference with same | resync
  · rw [same]
    exact asks.isControl
  · rw [resync]
    exact .resync

theorem outgoing (asking : IsAsking purpose request s past x) :
    x.outgoing = request ∨ x.outgoing = .plain (.request .resync) := by
  rw [Exchange.outgoing, asking.quiet]
  exact asking.reference

theorem start (asks : purpose.Asks request answer) (s : Sequence) :
    IsAsking purpose request s [] (start purpose s (.into [] [])) where
  regular := isRegular_start ..
  settled := settled_start purpose s (.into [] [])
  reference := .inl (asks.firstBlock ..)
  quiet := rfl
  sequence := rfl

theorem leads (asking : IsAsking purpose request s past x) (asks : purpose.Asks request answer)
    (judges : x.Judges r) (leads : x.Leads r.verdict y) :
    IsAsking purpose request s (past ++ [r]) y := by
  have regular := asking.regular.leads judges leads
  have settled := asking.settled.leads judges leads
  obtain ⟨sequence, reaction⟩ := asking.regular.of_control judges (asking.isControl asks)
  have carried (goesOn : r.verdict.reaction ≠ .resetSession) :
      r.verdict.sequence = Round.origin s (past ++ [r]) := by
    rw [Round.origin_of_not _ _ (Round.isRestart_of_ne goesOn), ← asking.sequence, sequence]
  cases leads with
  | again now => exact ⟨regular, settled, asking.reference, rfl, carried (by simp [now])⟩
  | resync now => exact ⟨regular, settled, .inr rfl, rfl, carried (by simp [now])⟩
  | proceed now =>
    simp only [now, reduceCtorEq, false_or, Reaction.proceed.injEq] at reaction
    exact ⟨regular, settled, .inr reaction, rfl, carried (by simp [now])⟩
  | interject now => simp [now] at reaction
  | reset now => simp [now] at reaction
  | restart now =>
    refine ⟨regular, settled, .inl ?_, rfl, ?_⟩
    · change x.purpose.firstBlock _ _ = _
      rw [asking.settled.purpose]
      exact asks.firstBlock ..
    · rw [Round.origin_of_restart (Round.isRestart_iff.mpr now)]
      rfl

/-- The exchange ends well if it was completed, and otherwise for the want of a new start. -/
theorem ends (asking : IsAsking purpose request s past x) (asks : purpose.Asks request answer)
    (judges : x.Judges r) {ending : Ending} (ends : x.Ends r.verdict ending y) :
    y.sequence = Round.origin s (past ++ [r]) ∧
      (r.verdict.reaction = .complete ∧ ending = .completed [] ∨
        r.verdict.reaction ≠ .complete ∧ ending = .unanswered) := by
  obtain ⟨sequence, reaction⟩ := asking.regular.of_control judges (asking.isControl asks)
  rw [Round.origin_of_not _ _ ends.isRestart, ← asking.sequence, ← sequence]
  have full : r.verdict.transfer.response = [] := by
    have capacity := (asking.settled.judged judges).capacity
    rw [← List.length_eq_zero_iff, Transfer.length_response]
    change r.verdict.transfer.capacity = 0 at capacity
    omega
  cases ends with
  | completed now => exact ⟨rfl, .inl ⟨now, by rw [full]⟩⟩
  | unanswered now => exact ⟨rfl, .inr ⟨by simp [now], rfl⟩⟩
  | aborted now => simp [now] at reaction
  | gaveUp now => simp [now] at reaction
  | notReset now => simp [now] at reaction

theorem isKept (asks : purpose.Asks request answer) (s : Sequence) :
    IsKept (IsAsking purpose request s) :=
  fun _ _ _ _ asking => asking.leads asks

end IsAsking

end Exchange

/-! ## In a session -/

namespace Session

/-- All that a session does in an operation is to ask for something, and possibly for a new start. -/
structure Isolated (s : Session ScriptedCard) (op : Operation) (request answer : Block) : Prop where
  -- Nothing else is sent
  sends : ∀ r ∈ (s.course op).rounds,
    (s.options.outbound r.before.outgoing).bytes = s.options.wire request ∨
      (s.options.outbound r.before.outgoing).bytes = s.options.wire (.plain (.request .resync))
  -- The operation succeeds if the last frame is a sound answer to the request, and only then
  succeeds : (s.perform op).1 = .completed [] ↔ ∃ r ∈ (s.course op).rounds.getLast?,
    r.before.buffers.reference.block = request ∧ r.received.isSound = true ∧ r.received.block = answer
  -- It fails in one way only
  fails : (s.perform op).1 ≠ .completed [] → (s.perform op).1 = .unanswered
  -- Only a new start moves the sequence bits
  restarted : (∃ r ∈ s.rounds op, r.received.pcb = .response .resync ∧ r.refusal? = none) →
    (s.perform op).2.sequence = .fresh
  kept : (¬∃ r ∈ s.rounds op, r.received.pcb = .response .resync ∧ r.refusal? = none) →
    (s.perform op).2.sequence = s.sequence

variable {purpose : Purpose} {request answer : Block} {op : Operation}

theorem isolated_of_asks (asks : purpose.Asks request answer) (s : Session ScriptedCard)
    (host : op.host s.sequence = .start purpose s.sequence (.into [] [])) :
    s.Isolated op request answer := by
  have seen : (Exchange.start purpose s.sequence (.into [] [])).run s.options s.backend =
      (s.course op).map Host.view := by
    rw [course, host]
    exact Host.run_start ..
  have rounds : ((Exchange.start purpose s.sequence (.into [] [])).run s.options s.backend).rounds =
      s.rounds op := congrArg Course.rounds seen
  have kept := Exchange.IsAsking.isKept asks s.sequence
  have begun := Exchange.IsAsking.start asks s.sequence
  obtain ⟨past, x, r, split, asking, judges, ends⟩ :=
    kept.run begun (Exchange.isRegular_start ..) s.options s.backend
  obtain ⟨sequence, ending⟩ := asking.ends asks judges ends
  have complete := judges.complete_iff asks asking.reference
  rw [← split, rounds, seen] at sequence
  rw [seen] at ending
  change (s.perform op).2.sequence = _ at sequence
  change _ ∧ (s.perform op).1 = _ ∨ _ ∧ (s.perform op).1 = _ at ending
  have restarts : (s.rounds op).any Round.isRestart = true ↔
      ∃ r ∈ s.rounds op, r.received.pcb = .response .resync ∧ r.refusal? = none := by
    rw [List.any_eq_true]
    refine exists_congr fun r => and_congr_right fun member => ?_
    rw [← rounds] at member
    obtain ⟨_, _, -, judges⟩ := kept.of_mem_rounds begun member
    exact judges.isRestart_iff_accepted
  refine ⟨fun r member => ?_, ?_, ?_, fun restart => ?_, fun none => ?_⟩
  · have member' : r.map Host.view ∈ s.rounds op := List.mem_map_of_mem member
    rw [← rounds] at member'
    obtain ⟨past, y, asking, judges⟩ := kept.of_mem_rounds begun member'
    have ready : r.before.IsReady := by
      rw [course, host] at member
      exact Host.isReady_of_mem_rounds (Host.isReady_start ..) member
    have outgoing := asking.outgoing
    rw [← judges.before] at outgoing
    exact outgoing.imp (Host.bytes_outbound_of_outgoing ready) (Host.bytes_outbound_of_outgoing ready)
  · have last : (s.rounds op).getLast? = some r := by rw [← rounds, split, List.getLast?_concat]
    rw [Session.rounds, List.getLast?_map] at last
    obtain ⟨last, isLast, viewed⟩ := Option.map_eq_some_iff.mp last
    have reference : last.before.buffers.reference.block = x.reference := by
      rw [← judges.before, ← viewed]
      rfl
    have received : last.received = r.received := by
      rw [← viewed]
      rfl
    rw [isLast]
    simp only [Option.mem_def, Option.some.injEq, exists_eq_left', reference, received, ← complete]
    rcases ending with ⟨now, ending⟩ | ⟨now, ending⟩
    · simp [now, ending]
    · simp [now, ending, Ending.unanswered]
  · intro other
    exact (ending.resolve_left fun completed => other completed.2).2
  · rw [sequence, Round.origin, if_pos (restarts.mpr restart)]
  · rw [sequence, Round.origin, if_neg fun restart => none (restarts.mp restart)]

/-- To announce a block size and to ask the card to give up a chain leave no trace in a session. Whatever
    the card replies, only the request and requests for a new start are sent, a sound answer to the request
    is what makes the operation succeed, and the sequence bits stay as they were unless the card agrees to
    a new start.

    The rounds of the operation are what the card hears and replies (`Host.played_runFor`). -/
theorem isolated_controls (s : Session ScriptedCard) :
    (∀ ifs : Ifs, s.Isolated (.negotiateIfs ifs) (.valued (.request .ifs) ifs.val)
      (.valued (.response .ifs) ifs.val)) ∧
    s.Isolated .abort (.plain (.request .abort)) (.plain (.response .abort)) :=
  ⟨fun ifs => isolated_of_asks (.ifs ifs) s rfl, isolated_of_asks .abort s rfl⟩

-- A part of a response comes before the answer.
example : let s : Session ScriptedCard := ⟨.ofReplies [.frame [0xA5, 0, 1, 9, 0xAD],
      .frame [0xA5, 0xE1, 1, 32, 0x65]], {}, ⟨false, true⟩, none⟩
    let performed := s.perform (.negotiateIfs ⟨32, by decide, by decide⟩)
    performed.1 = .completed [] ∧ performed.2.sequence = s.sequence := by decide +kernel

end Session

end CardLink
