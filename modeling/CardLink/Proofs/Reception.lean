import CardLink.Proofs.Refinement
import CardLink.Proofs.Scripts
import CardLink.Proofs.Stretches

/-!
# Reception

The response of a completed exchange is what the information blocks carried that the exchange accepted
since it was last begun, as far as there was room for it (`response_of_completed`). These blocks are
one chain: their bits alternate, all but the last say that more follows, and the last does not. A block
that was refused, or that was accepted before a restart, has no part in the response.

What is received is tied to the accepted blocks by an invariant of every exchange, whatever it is for
(`Gathering`). For an exchange that sends a payload, `Receiving` ties the card's bit to them as well.
-/

namespace CardLink

/-! ## Accepted blocks -/

/-- The information block that was accepted in a round. -/
def Round.part? (r : Round Exchange) : Option Frame :=
  let refusal? := r.before.transfer.waited.refusal? r.before.sequence r.before.reference r.received
  if refusal? = none ∧ r.received.pcb.isInfo then some r.received else none

/-- The information blocks that were accepted since the exchange was last begun. -/
def Round.parts (rounds : List (Round Exchange)) : List Frame :=
  (sinceRestart rounds).filterMap part?

namespace Exchange

variable {σ : Type} [Backend σ] {o : Options} {x y : Exchange} {r : Round Exchange} {bus bus' : σ}

/-- What a round does to the response. -/
inductive Takes (x : Exchange) (r : Round Exchange) : Prop where
  -- A part of the response is accepted, and the exchange is completed if it was the last one
  | part (more : Bool) (part : r.part? = some r.received) (sound : r.received.isSound = true)
      (info : r.received.pcb = .info (!x.sequence.card) more)
      (card : r.verdict.sequence.card = !x.sequence.card)
      (response : r.verdict.transfer.response =
        x.transfer.response ++ r.received.inf.take x.transfer.room)
      (goesOn : more = true → ∃ next, r.verdict.reaction = .proceed next)
      (completes : more = false → r.verdict.reaction = .complete)
  -- Nothing is accepted that carries a part of the response
  | nothing (part : r.part? = none) (card : r.verdict.sequence.card = x.sequence.card)
      (response : r.verdict.transfer.response = x.transfer.response)
      (completed : r.verdict.reaction = .complete →
        x.reference.pcb = .request .ifs ∨ x.reference.pcb = .request .abort)

theorem part?_of_accepted (judges : x.Judges r)
    (accepted : x.transfer.waited.refusal? x.sequence x.reference r.received = none) :
    r.part? = if r.received.pcb.isInfo then some r.received else none := by
  simp only [Round.part?, judges.before, accepted, true_and]

theorem part?_of_refused (judges : x.Judges r) {fault : BlockFault}
    (refused : x.transfer.waited.refusal? x.sequence x.reference r.received = some fault) :
    r.part? = none := by
  simp [Round.part?, judges.before, refused]

/-- An information block is accepted as a part of the response, and moves the card's bit. -/
theorem takes_of_info (judges : x.Judges r) {reaction : Reaction} {t' : Transfer}
    (passed : x.sequence.fault? r.received = none)
    (rule : x.transfer.waited.Rule x.reference (.block r.received.block) reaction t')
    (verdict : r.verdict = ⟨reaction, t', (x.sequence.answered x.reference.pcb).taken r.received.pcb⟩)
    (isInfo : r.received.pcb.isInfo = true) : x.Takes r := by
  have accepted := Transfer.refusal?_eq_none_iff.mpr ⟨passed, _, _, rule⟩
  have part := part?_of_accepted judges accepted
  rw [if_pos isInfo] at part
  obtain ⟨-, sound, wellFormed⟩ := Sequence.fault?_eq_none_iff.mp passed
  obtain ⟨c, more, info⟩ := Pcb.isInfo_iff.mp isInfo
  obtain ⟨-, rfl, rfl⟩ := rule.of_info info
  -- The check has refused every block that repeats the card's bit.
  have alternates : c = !x.sequence.card := by
    simp only [Sequence.isWellFormed, info, bne_iff_ne] at wellFormed
    exact Bool.eq_not_of_ne wellFormed
  subst alternates
  refine .part more part sound info ?_ ?_ ?_ ?_
  · rw [verdict, info]
    rfl
  · rw [verdict]
    exact Transfer.response_taking isInfo
  · rintro rfl
    rw [verdict]
    exact ⟨_, rfl⟩
  · rintro rfl
    rw [verdict]
    rfl

theorem takes_of_judges (judges : x.Judges r) : x.Takes r := by
  have judged := judges.judged
  generalize verdict : r.verdict = v at judged
  cases judged with
  | accepted passed rule =>
    by_cases isInfo : r.received.pcb.isInfo = true
    · exact takes_of_info judges passed rule verdict isInfo
    · have accepted := Transfer.refusal?_eq_none_iff.mpr ⟨passed, _, _, rule⟩
      have part := part?_of_accepted judges accepted
      rw [if_neg isInfo] at part
      have nothing := rule.of_not_info (Bool.eq_false_iff.mpr isInfo)
      refine .nothing part ?_ ?_ ?_
      · rw [verdict]
        change ((x.sequence.answered x.reference.pcb).taken r.received.pcb).card = _
        cases pcb : r.received.pcb with
        | info => rw [pcb] at isInfo; exact absurd rfl isInfo
        | ready => exact Sequence.card_answered ..
        | super => exact Sequence.card_answered ..
      · rw [verdict]
        exact nothing.1
      · rw [verdict]
        exact nothing.2
  | refused refusal recovers =>
    refine .nothing (part?_of_refused judges refusal) ?_ ?_ ?_
    · rw [verdict]
      exact Sequence.card_noticed ..
    · rw [verdict]
      cases recovers with
      | rule _ _ rule => cases rule <;> rfl
      | _ => rfl
    · rw [verdict]
      intro complete
      cases complete
      cases recovers with
      | rule _ _ rule => cases rule

/-! ## What is gathered -/

/-- The response so far is what was accepted so far, as far as there is room. -/
structure Gathering (capacity : Nat) (past : List (Round Exchange)) (x : Exchange) : Prop where
  steady : x.IsSteady
  size : x.transfer.capacity = capacity
  response : x.transfer.response = ((Round.parts past).flatMap Frame.inf).take capacity

theorem response_append {t : Transfer} {gathered : Bytes} (response : t.response = gathered.take t.capacity)
    (inf : Bytes) : t.response ++ inf.take t.room = (gathered ++ inf).take t.capacity := by
  have length := t.length_response
  have room : t.room ≤ t.capacity := Nat.sub_le ..
  rw [List.take_append, ← response]
  congr 2
  rw [response, List.length_take] at length
  omega

theorem parts_of_part (past : List (Round Exchange)) (goesOn : r.isRestart = false)
    (part : r.part? = some r.received) :
    Round.parts (past ++ [r]) = Round.parts past ++ [r.received] := by
  simp [Round.parts, Round.sinceRestart_of_not goesOn, part]

theorem parts_of_nothing (past : List (Round Exchange)) (goesOn : r.isRestart = false)
    (nothing : r.part? = none) :
    Round.parts (past ++ [r]) = Round.parts past := by
  simp [Round.parts, Round.sinceRestart_of_not goesOn, nothing]

section Gathering

variable {capacity : Nat} {past : List (Round Exchange)}

theorem Gathering.judged (gathering : Gathering capacity past x) (judges : x.Judges r)
    (goesOn : r.isRestart = false) : r.verdict.transfer.response =
      ((Round.parts (past ++ [r])).flatMap Frame.inf).take capacity := by
  have before := gathering.response
  cases takes_of_judges judges with
  | nothing none _ response =>
    rw [parts_of_nothing past goesOn none, response, before]
  | part more part _ _ _ response =>
    rw [← gathering.size] at before ⊢
    rw [parts_of_part past goesOn part, response, response_append before, List.flatMap_append]
    simp only [List.flatMap_cons, List.flatMap_nil, List.append_nil]

theorem response_restarted (x : Exchange) : x.restarted.transfer.response = [] := by
  change (x.purpose.begun x.transfer.rewound).response = []
  cases x.purpose <;> rfl

theorem Gathering.leads (gathering : Gathering capacity past x) (judges : x.Judges r)
    (leads : x.Leads r.verdict y) : Gathering capacity (past ++ [r]) y := by
  have settled : Settled x.purpose x.transfer.payload capacity x := ⟨rfl, rfl, gathering.size⟩
  refine ⟨gathering.steady.leads judges leads, (settled.leads judges leads).capacity, ?_⟩
  rcases leads.cases gathering.steady judges with ⟨restart, rfl⟩ | ⟨goesOn, carries⟩
  -- What was accepted before a restart is forgotten, and so is the response.
  · rw [response_restarted, Round.parts, Round.sinceRestart_of_restart restart]
    exact List.take_nil.symm
  · rw [carries.response]
    exact gathering.judged judges goesOn

theorem gathering_of_reaches (gathering : Gathering capacity [] x)
    (reached : Reaches (round o) x bus past y bus') : Gathering capacity past y :=
  IsKept.of_reaches (fun _ _ _ _ => Gathering.leads) gathering reached

/-- A completed exchange was ended by its last round, with the response as it was then. -/
theorem exists_round_of_completed {n : Nat} {response : Bytes}
    (completed : (x.runFor o n bus).ending = .completed response) : ∃ past y bus' r,
      (x.runFor o n bus).rounds = past ++ [r] ∧ Reaches (round o) x bus past y bus' ∧ y.Judges r ∧
        r.verdict.reaction = .complete ∧ response = r.verdict.transfer.response ∧
        (x.runFor o n bus).last.transfer = r.verdict.transfer := by
  rcases Course.upTo_cases (round o) n x bus with
    ⟨-, unsettled, -⟩ | ⟨past, y, bus', r, rounds, -, reached, last⟩
  · rw [runFor, unsettled] at completed
    cases completed
  · obtain ⟨judges, ends⟩ := ends_of_round last
    rw [show (Course.upTo (round o) n x bus).ending = .completed response from completed] at ends
    obtain ⟨complete, content, ended⟩ := ends.of_completed
    exact ⟨past, y, bus', r, rounds, reached, judges, complete, content, congrArg transfer ended⟩

/-- The response of a completed exchange is what was accepted since it was last begun, as far as there was
    room for it. -/
theorem gathered_of_completed {purpose : Purpose} {s : Sequence} {payload buffer response : Bytes}
    {n : Nat} (completed : ((start purpose s (.into payload buffer)).runFor o n bus).ending =
      .completed response) :
    let course := (start purpose s (.into payload buffer)).runFor o n bus
    response = ((Round.parts course.rounds).flatMap Frame.inf).take buffer.length ∧
      course.last.transfer.response = response := by
  intro course
  obtain ⟨past, y, bus', r, rounds, reached, judges, complete, content, last⟩ :=
    exists_round_of_completed completed
  have begun : Gathering buffer.length [] (start purpose s (.into payload buffer)) := by
    refine ⟨isSteady_start .., (settled_start purpose s (.into payload buffer)).capacity, ?_⟩
    cases purpose <;> exact List.take_nil.symm
  have goesOn : r.isRestart = false := Round.isRestart_of_ne (by simp [complete])
  refine ⟨?_, ?_⟩
  · rw [content, rounds]
    exact (gathering_of_reaches begun reached).judged judges goesOn
  · rw [last, content]

end Gathering

/-! ## The invariant -/

/-- The response so far is what was accepted so far, and the card's bit is that of the last block that
    was accepted. All these blocks announced that more follows. -/
structure Receiving (s : Sequence) (payload : Bytes) (capacity : Nat) (rounds : List (Round Exchange))
    (x : Exchange) : Prop where
  settled : Settled .transceive payload capacity x
  steady : x.IsSteady
  transceived : IsTransceived x.reference.pcb
  sound : ∀ f ∈ Round.parts rounds, f.isSound = true
  chained : (Round.parts rounds).map Frame.pcb = (List.range (Round.parts rounds).length).map fun i =>
    .info (Sequence.bitAt (!(Round.origin s rounds).card) i) true
  card : x.sequence.card = Sequence.bitAt (Round.origin s rounds).card (Round.parts rounds).length
  response : x.transfer.response = ((Round.parts rounds).flatMap Frame.inf).take capacity

variable {s : Sequence} {payload : Bytes} {capacity : Nat} {past : List (Round Exchange)}

theorem receiving_begun (none : Round.sinceRestart past = []) (payload buffer : Bytes)
    (wasReset : Bool) : Receiving s payload buffer.length past
      { start .transceive (Round.origin s past) (.into payload buffer) with wasReset } := by
  have parts : Round.parts past = [] := by rw [Round.parts, none, List.filterMap_nil]
  refine ⟨settled_begun .., isSteady_of_zero rfl rfl, .info, ?_, ?_, ?_, ?_⟩
  · simp [parts]
  · simp [parts]
  · rw [parts]
    rfl
  · rw [parts]
    exact List.take_nil.symm

theorem Receiving.gathering (receiving : Receiving s payload capacity past x) :
    Gathering capacity past x :=
  ⟨receiving.steady, receiving.settled.capacity, receiving.response⟩

theorem Receiving.sound_append (receiving : Receiving s payload capacity past x)
    (sound : r.received.isSound = true) : ∀ f ∈ Round.parts past ++ [r.received], f.isSound = true := by
  intro f accepted
  rcases List.mem_append.mp accepted with earlier | now
  · exact receiving.sound f earlier
  · rw [List.mem_singleton.mp now]
    exact sound

theorem Receiving.pcb_getElem (receiving : Receiving s payload capacity past x) {i : Nat}
    (within : i < (Round.parts past).length) : (Round.parts past)[i].pcb =
      .info (Sequence.bitAt (!(Round.origin s past).card) i) true := by
  have pcb := List.getElem_of_eq receiving.chained (i := i) (by simpa using within)
  simpa using pcb

theorem Receiving.bitAt_length (receiving : Receiving s payload capacity past x) :
    Sequence.bitAt (!(Round.origin s past).card) (Round.parts past).length = !x.sequence.card := by
  rw [receiving.card, Sequence.bitAt_not, Sequence.bitAt]

theorem Receiving.leads (receiving : Receiving s payload capacity past x) (judges : x.Judges r)
    (leads : x.Leads r.verdict y) : Receiving s payload capacity (past ++ [r]) y := by
  rcases leads.cases receiving.steady judges with ⟨restart, rfl⟩ | ⟨goesOn, carries⟩
  -- What was accepted before a restart is forgotten, and so is the response.
  · have settled := receiving.settled.judged judges
    rw [settled.restarted_eq, ← settled.capacity, ← Round.origin_of_restart (s := s) restart]
    exact receiving_begun (Round.sinceRestart_of_restart restart) payload _ _
  have settled := receiving.settled.leads judges leads
  have steady := receiving.steady.leads judges leads
  have transceived :=
    isTransceived_of_leads judges leads receiving.settled.purpose receiving.transceived
  have sequence := carries.sequence
  have gathered := (receiving.gathering.leads judges leads).response
  have origin := Round.origin_of_not s past goesOn
  cases takes_of_judges judges with
  | nothing none card =>
    have parts := parts_of_nothing past goesOn none
    refine ⟨settled, steady, transceived, ?_, ?_, ?_, gathered⟩
    · rw [parts]
      exact receiving.sound
    · rw [parts, origin]
      exact receiving.chained
    · rw [parts, origin, sequence, card]
      exact receiving.card
  | part more part sound info card _ _ completes =>
    -- The last part would have completed the exchange.
    have more : more = true := by
      cases more with
      | true => rfl
      | false => exact absurd (completes rfl) leads.reaction_ne_complete
    subst more
    have parts := parts_of_part past goesOn part
    refine ⟨settled, steady, transceived, ?_, ?_, ?_, gathered⟩
    · rw [parts]
      exact receiving.sound_append sound
    · rw [parts, origin, List.map_append, receiving.chained, List.length_append, List.length_singleton,
        List.range_succ, List.map_append]
      simp only [List.map_cons, List.map_nil, info, receiving.bitAt_length]
    · rw [parts, origin, sequence, card, receiving.card, List.length_append]
      rfl

theorem receiving_of_reaches {s : Sequence} {payload buffer : Bytes}
    (reached : Reaches (round o) (start .transceive s (.into payload buffer)) bus past y bus') :
    Receiving s payload buffer.length past y :=
  IsKept.of_reaches (fun _ _ _ _ => Receiving.leads)
    (receiving_begun Round.sinceRestart_nil payload buffer false) reached

/-! ## The response -/

/-- A response and the blocks that it came in. -/
structure Reception (s : Sequence) (capacity : Nat) (rounds : List (Round Exchange))
    (response : Bytes) : Prop where
  received : Round.parts rounds ≠ []
  sound : ∀ f ∈ Round.parts rounds, f.isSound = true
  -- Bits alternate from the complement of the card's bit on, and all but the last block say that
  -- more follows
  chained : ∀ i (within : i < (Round.parts rounds).length), (Round.parts rounds)[i].pcb =
    .info (Sequence.bitAt (!(Round.origin s rounds).card) i)
      (decide (i + 1 < (Round.parts rounds).length))
  content : response = ((Round.parts rounds).flatMap Frame.inf).take capacity
  size : response.length = min ((Round.parts rounds).flatMap Frame.inf).length capacity

/-- The last part closes the chain. -/
theorem Receiving.completed (receiving : Receiving s payload capacity past x) (judges : x.Judges r)
    (complete : r.verdict.reaction = .complete) :
    Reception s capacity (past ++ [r]) r.verdict.transfer.response := by
  have goesOn : r.isRestart = false := Round.isRestart_of_ne (by simp [complete])
  cases takes_of_judges judges with
  | nothing _ _ _ completed =>
    -- Only the other two purposes are served without a part of a response.
    have transceived := receiving.transceived
    rcases completed complete with ifs | abort
    · rw [ifs] at transceived
      cases transceived
    · rw [abort] at transceived
      cases transceived
  | part more part sound info _ _ goesOn' =>
    have more : more = false := by
      cases more with
      | false => rfl
      | true =>
        obtain ⟨next, proceeds⟩ := goesOn' rfl
        rw [complete] at proceeds
        cases proceeds
    subst more
    have parts := parts_of_part past goesOn part
    have origin := Round.origin_of_not s past goesOn
    have whole := receiving.gathering.judged judges goesOn
    refine ⟨?_, ?_, ?_, whole, ?_⟩
    · rw [parts]
      exact List.append_ne_nil_of_right_ne_nil _ (List.cons_ne_nil _ _)
    · rw [parts]
      exact receiving.sound_append sound
    · rw [parts, origin]
      intro i within
      rw [List.length_append, List.length_singleton] at within ⊢
      by_cases earlier : i < (Round.parts past).length
      · rw [List.getElem_append_left earlier, receiving.pcb_getElem earlier,
          decide_eq_true (Nat.succ_lt_succ earlier)]
      · have now : i = (Round.parts past).length := by omega
        subst now
        rw [List.getElem_concat_length rfl, info, receiving.bitAt_length,
          decide_eq_false (Nat.lt_irrefl _)]
    · rw [whole, List.length_take, Nat.min_comm]

theorem reception_of_completed {s : Sequence} {payload buffer response : Bytes} {n : Nat}
    (completed : ((start .transceive s (.into payload buffer)).runFor o n bus).ending =
      .completed response) :
    let course := (start .transceive s (.into payload buffer)).runFor o n bus
    Reception s buffer.length course.rounds response ∧ course.last.transfer.response = response := by
  intro course
  obtain ⟨past, x, bus', r, rounds, reached, judges, complete, content, last⟩ :=
    exists_round_of_completed completed
  refine ⟨?_, ?_⟩
  · rw [content, rounds]
    exact (receiving_of_reaches reached).completed judges complete
  · rw [last, content]

end Exchange

theorem Round.part?_eq_some {r : Round Exchange} {f : Frame} (part : r.part? = some f) :
    f = r.received ∧ f.isAbsent = false := by
  simp only [part?] at part
  split at part
  next accepted =>
    cases part
    obtain ⟨passed, -⟩ := Transfer.refusal?_eq_none_iff.mp accepted.1
    exact ⟨rfl, (Sequence.fault?_eq_none_iff.mp passed).1⟩
  next => cases part

/-- The accepted blocks are among the frames that were received, in their order. -/
theorem Round.parts_sublist (rounds : List (Round Exchange)) :
    (parts rounds).Sublist (rounds.map Round.received) := by
  refine List.Sublist.trans ?_ ((sinceRestart_suffix rounds).sublist.map _)
  rw [parts]
  induction sinceRestart rounds with
  | nil => exact .slnil
  | cons r rounds ih =>
    cases part : r.part? with
    | none =>
      rw [List.filterMap_cons_none part]
      exact ih.cons _
    | some f =>
      rw [List.filterMap_cons_some part, (part?_eq_some part).1]
      exact ih.cons_cons _

/-- A completed exchange with a scripted card has written into its buffer what the information blocks
    carried that it accepted since it was last begun, as far as there was room for it. These blocks are
    sound frames of the script, in their order, and they are one chain from the complement of the card's
    bit on. -/
theorem Host.response_of_completed {card : ScriptedCard} (idle : card.IsIdle) (o : Options)
    (s : Sequence) (payload buffer : Bytes) (n : Nat) {response : Bytes}
    (completed : ((Host.start .transceive s (.into payload buffer)).runFor o n card).ending =
      .completed response) :
    let course := (Host.start .transceive s (.into payload buffer)).runFor o n card
    let rounds := course.rounds.map (Round.map Host.view)
    Exchange.Reception s buffer.length rounds response ∧
      (Round.parts rounds).Sublist (card.replies.map (Reply.heard o)) ∧
      course.last.transfer.buffer.take response.length = response := by
  intro course rounds
  have refines := Host.runFor_start .transceive s (.into payload buffer) o n card
  have ending : ((Exchange.start .transceive s (.into payload buffer)).runFor o n card).ending =
      .completed response := by
    rw [refines]
    exact completed
  obtain ⟨reception, last⟩ := Exchange.reception_of_completed ending
  have played := Host.played_start idle .transceive s (.into payload buffer) o n
  rw [refines] at reception last
  refine ⟨reception, ?_, ?_⟩
  · have heard := Round.parts_sublist rounds
    rw [show rounds.map Round.received = _ from played.received] at heard
    refine Reply.sublist_of_hearings heard fun f accepted => ?_
    obtain ⟨r, -, part⟩ := List.mem_filterMap.mp accepted
    exact (Round.part?_eq_some part).2
  · rw [← last]
    exact course.last.transfer.take_length_response

/-- A part from before a restart is forgotten, and only two bytes of the next attempt have room. -/
theorem Host.response_of_completed_after_restart :
    let course := (Host.start .transceive .fresh (.into [7] [0, 0])).runFor {} 7 ScriptedCard.restarting
    let rounds := course.rounds.map (Round.map Host.view)
    ScriptedCard.restarting.IsIdle ∧ course.ending = .completed [1, 2] ∧
      Exchange.Reception .fresh 2 rounds [1, 2] ∧
      (Round.parts rounds).Sublist (ScriptedCard.restarting.replies.map (Reply.heard {})) ∧
      course.last.transfer.buffer.take 2 = [1, 2] :=
  have completed : ((Host.start .transceive .fresh (.into [7] [0, 0])).runFor {} 7
      ScriptedCard.restarting).ending = .completed [1, 2] := by decide +kernel
  have idle : ScriptedCard.restarting.IsIdle := ScriptedCard.isIdle_ofReplies _
  ⟨idle, completed, Host.response_of_completed idle {} .fresh [7] [0, 0] 7
    completed⟩

end CardLink
