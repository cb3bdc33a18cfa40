import CardLink.Backend.Loopback
import CardLink.Proofs.SentBlocks
import CardLink.Proofs.Sessions
import CardLink.Proofs.Wire

/-!
# Sessions with a loopback

A loopback sends back every block, with the check under which the host accepts it (`Loopback.echo`,
`converse_of_isIdle`). So in each round an exchange receives what it has sent.

A payload that fits into one block is thereby taken for the response to itself. Its bit is the one that the
card has to use next as long as both sides have used the same bit last, and so they have again after the
exchange. Of a longer payload, the first part comes back instead of an acknowledgement. It is refused and
reported, the report comes back and asks for the part again, and so on until a new start is asked for; the
request for that comes back as well, and is no answer to itself (`Exchange.IsAlone`).
-/

namespace CardLink

/-! ## One frame -/

namespace Loopback

/-- What comes back of a block. -/
def echo (b : Block) : Frame :=
  let content := b.pcb.toByte :: UInt8.ofNat b.inf.length :: b.inf
  Frame.absent.showing 0 b.pcb.toByte b.inf (Bytes.check (0 :: content))

@[simp] theorem block_echo (b : Block) : (echo b).block = b := Frame.block_showing ..

theorem pcb_echo (b : Block) : (echo b).pcb = b.pcb := congrArg Block.pcb (block_echo b)

theorem isAbsent_echo (b : Block) : (echo b).isAbsent = false := Frame.isAbsent_showing ..

theorem isSound_echo (b : Block) : (echo b).isSound = true := by
  rw [echo, Frame.isSound_showing b.inf_length_le]
  exact beq_self_eq_true _

/-- The loopback sends a block back with its own address, under which the check is right. -/
theorem reflection?_wire (b : Block) :
    reflection? (settings.wire b) = some (Frame.wire 0 b.pcb b.inf) :=
  if_pos (Bytes.check_concat_check (0 :: b.pcb.toByte :: UInt8.ofNat b.inf.length :: b.inf))

/-- An endpoint that sends a block back, of which some bytes were read. -/
def echoing (b : Block) (position : Nat) : Loopback where
  isOpen := true
  outbox := some (Frame.wire 0 b.pcb b.inf)
  position

end Loopback

/-- The endpoint is open, and nothing is under way on it. -/
def Traced.IsIdle (t : Traced Loopback) : Prop := t.bus = { isOpen := true }

namespace Loopback

open CardLink.Frame

variable {t : Traced Loopback}

theorem send_of_isIdle (idle : t.IsIdle) (b : Block) :
    (stateAfter ((send settings b.frame).run t)).bus = echoing b 0 := by
  obtain ⟨bus, calls⟩ := t
  obtain rfl : bus = _ := idle
  have fits : ¬ 0 + (settings.outbound b.frame).bytes.length > Loopback.capacity := by
    have := (settings.outbound b.frame).infLength_le
    have : Loopback.capacity = maxInf + 4 := rfl
    rw [length_bytes]
    omega
  have sent := settings.bytes_outbound (isCanonical_frame b)
  simp only [EStateM.run, send, Backend.transmit, Traced.lifting, Loopback.transmit, Loopback.whenOpen,
    List.length_nil, if_neg fits, if_true, List.nil_append, stateAfter, Loopback.delivered]
  rw [sent, block_frame, Loopback.reflection?_wire]
  rfl

/-- What comes back is read as a whole. -/
theorem receiveRest_echoing (b : Block) (calls : List Call) : ∃ calls',
    (receiveRest settings absent : Bus (Traced Loopback) Frame).run ⟨echoing b 1, calls⟩ =
      .ok (echo b) ⟨{ isOpen := true }, calls'⟩ := by
  let len := UInt8.ofNat b.inf.length
  let check := Bytes.check (0 :: b.pcb.toByte :: len :: b.inf)
  have reserved : len ≠ 255 := ofNat_length_ne_reserved b.inf_length_le
  have room : len.toNat + 1 = (b.inf ++ [check]).length := by
    rw [List.length_append, toNat_ofNat_length b.inf_length_le]
    rfl
  have body : (guardedRead (len.toNat + 1) true : Bus (Traced Loopback) Reading).run
      ⟨echoing b 3, calls ++ [.receive 2 false]⟩ = .ok (.ofBytes (b.inf ++ [check]))
        ⟨{ isOpen := true }, calls ++ [.receive 2 false] ++ [.receive (len.toNat + 1) true]⟩ := by
    change EStateM.Result.ok (Reading.ofBytes ((b.inf ++ [check]).take (len.toNat + 1))) _ = _
    rw [room, List.take_length]
    rfl
  refine ⟨calls ++ [.receive 2 false] ++ [.receive (len.toNat + 1) true], ?_⟩
  rw [receiveRest, EStateM.run_bind]
  change (if len = 255 then _ else receiveBody settings absent b.pcb.toByte len :
    Bus (Traced Loopback) Frame).run ⟨echoing b 3, _⟩ = _
  rw [if_neg reserved, receiveBody, EStateM.run_bind, body]
  change (if (b.inf ++ [check]).length = len.toNat + 1 then _ else _ :
    Bus (Traced Loopback) Frame).run _ = _
  rw [if_pos room.symm, room]
  simp only [Reading.ofBytes, List.take_length]
  rfl

/-- A block that is sent comes back, and the endpoint is idle again. -/
theorem converse_of_isIdle (idle : t.IsIdle) (timeout : Duration) (b : Block) :
    (converse settings timeout b.frame t).1 = echo b ∧
      (converse settings timeout b.frame t).2.IsIdle := by
  have ready := send_of_isIdle idle b
  rw [converse]
  generalize stateAfter ((send settings b.frame).run t) = t' at ready
  obtain ⟨bus, calls⟩ := t'
  obtain rfl : bus = _ := ready
  obtain ⟨calls', reads⟩ := receiveRest_echoing b (calls ++ [.poll settings.host timeout false])
  have hears : listen settings timeout (⟨echoing b 0, calls⟩ : Traced Loopback) =
      (echo b, ⟨{ isOpen := true }, calls'⟩) := by
    rw [listen_eq, Frame.receive, EStateM.run_bind]
    change orAbsent ((receiveRest settings absent : Bus (Traced Loopback) Frame).run
      ⟨echoing b 1, _⟩) = _
    rw [reads]
    rfl
  rw [hears]
  exact ⟨rfl, rfl⟩

end Loopback

/-! ## Rounds -/

namespace Exchange

open Loopback (settings echo)

variable {x y : Exchange} {t t' : Traced Loopback} {r : Round Exchange} {step : Step Exchange}

/-- A loopback can not be reset, so a verdict is acted on without it. -/
theorem follow_loopback (x : Exchange) (v : Verdict) (t : Traced Loopback) :
    (x.follow v t).2.bus = t.bus := by
  rcases x.follow_bus_cases v t with same | ⟨-, reset⟩
  · rw [same]
  · rw [reset]
    rfl

/-- What is sent in a round is received in it. -/
theorem echoed_of_round (idle : t.IsIdle) (next : round settings x t = (r, step, t')) :
    r.received = echo x.outgoing ∧ t'.IsIdle := by
  obtain ⟨hears, idle'⟩ := Loopback.converse_of_isIdle idle (x.timeout settings) x.outgoing
  simp only [round, Prod.mk.injEq] at next
  obtain ⟨rfl, goes⟩ := next
  refine ⟨hears, ?_⟩
  rw [← show _ = t' from congrArg Prod.snd goes, Traced.IsIdle, follow_loopback]
  exact idle'

/-! ## A payload of one block -/

/-- The first block of a payload says that more follows if it can not hold all of it. -/
theorem pcb_firstBlock (s : Sequence) (payload : Bytes) (capacity : Nat) :
    (start .transceive s (.start payload capacity)).reference.pcb =
      .info s.next (decide (maxInf < payload.length)) := by
  change ((Transfer.start payload capacity).nextBlock s.next).pcb = _
  rw [Transfer.pcb_nextBlock, Pcb.info.injEq]
  refine ⟨rfl, decide_eq_decide.mpr ?_⟩
  change 0 + (Transfer.start payload capacity).nextInf.length < payload.length ↔ _
  have filled := (Transfer.start payload capacity).length_nextInf
  change _ = min maxInf (payload.length - 0) at filled
  omega

/-- The only block of a short payload comes back as the response to itself, with the bit that the card has
    to use next. -/
theorem verdict_of_short {s : Sequence} (alike : s.card = s.host) {payload : Bytes}
    (fits : payload.length ≤ maxInf) {capacity : Nat}
    (judges : (start .transceive s (.start payload capacity)).Judges r)
    (echoed : r.received = echo (start .transceive s (.start payload capacity)).outgoing) :
    r.verdict.reaction = .complete ∧ r.verdict.sequence = ⟨s.next, s.next⟩ ∧
      r.verdict.transfer.response = payload.take capacity := by
  let x := start .transceive s (.start payload capacity)
  have inf : x.reference.inf = payload := List.take_of_length_le fits
  have pcb : x.reference.pcb = .info s.next false := by
    rw [pcb_firstBlock, decide_eq_false (Nat.not_lt_of_le fits)]
  have echoed : r.received = echo x.reference := echoed
  have same : r.received.pcb = .info s.next false := by rw [echoed, Loopback.pcb_echo, pcb]
  have passed : x.sequence.fault? r.received = none := by
    refine Sequence.fault?_eq_none_iff.mpr ⟨?_, ?_, ?_⟩
    · rw [echoed, Loopback.isAbsent_echo]
    · rw [echoed, Loopback.isSound_echo]
    · have fresh : s.next ≠ s.card := by simp [Sequence.next, alike]
      simp only [Sequence.isWellFormed, same]
      exact bne_iff_ne.mpr fresh
  have rule : x.transfer.waited.Rule x.reference (.block r.received.block) .complete
      (x.transfer.waited.taking r.received.block) := .last (by rw [pcb]; exact .last) same
  have verdict := judges.judged.eq_of_rule passed rule
  rw [pcb, same] at verdict
  rw [verdict]
  refine ⟨rfl, rfl, ?_⟩
  have room : x.transfer.waited.room = capacity := List.length_replicate
  have nothing : x.transfer.waited.response = [] := rfl
  change (x.transfer.waited.taking r.received.block).response = _
  rw [echoed, Loopback.block_echo, Transfer.response_taking (by rw [pcb]; rfl), inf, room, nothing,
    List.nil_append]

/-- A payload that fits into one block takes one round. -/
theorem runFor_of_short (idle : t.IsIdle) {s : Sequence} (alike : s.card = s.host) {payload : Bytes}
    (fits : payload.length ≤ maxInf) (capacity n : Nat) :
    let x := start .transceive s (.start payload capacity)
    let course := x.runFor settings (n + 1) t
    course.ending = .completed (payload.take capacity) ∧ course.last.sequence = ⟨s.next, s.next⟩ ∧
      (course.rounds.map fun r => r.before) = [x] ∧ course.bus.IsIdle := by
  intro x course
  match first : round settings x t with
  | (r, .going y, t') =>
    obtain ⟨judges, leads⟩ := leads_of_round first
    obtain ⟨echoed, -⟩ := echoed_of_round idle first
    exact absurd (verdict_of_short alike fits judges echoed).1 leads.reaction_ne_complete
  | (r, .ended ending y, t') =>
    obtain ⟨judges, ends⟩ := ends_of_round first
    obtain ⟨echoed, idle'⟩ := echoed_of_round idle first
    obtain ⟨reaction, sequence, response⟩ := verdict_of_short alike fits judges echoed
    have taken : course = ⟨[r], ending, y, t'⟩ := Course.upTo_ended n first
    rw [taken, ← response, ← sequence]
    cases ends with
    | completed => exact ⟨rfl, rfl, congrArg (fun x => [x]) judges.before, idle'⟩
    | _ => simp_all

/-! ## Longer payloads -/

/-- An exchange that hears nothing but what it sends, and has more to send than one block. -/
inductive IsAlone (x : Exchange) : Prop where
  -- A part of the payload comes back instead of an acknowledgement
  | part {seq : Bool} (reference : x.reference.pcb = .info seq true) (quiet : x.interjection = none)
  -- The report of a refused block comes back, and asks for the part again
  | report {seq : Bool} {fault : BlockFault} (reference : x.reference.pcb = .info seq true)
      (interjection : x.interjection = some (.plain (fault.report seq)))
  -- The request for a new start comes back instead of an answer to it
  | asks (reference : x.reference.pcb = .request .resync) (quiet : x.interjection = none)

/-- Between two refused frames there is one round at most. -/
def loneliness (x : Exchange) : Nat := 2 * x.patience + if x.interjection.isSome then 1 else 0

/-- One frame more that is refused makes up for whatever is interjected. -/
theorem loneliness_lt (fewer : y.patience < x.patience) : y.loneliness < x.loneliness := by
  unfold loneliness
  split <;> split <;> omega

theorem outgoing_of_quiet (quiet : x.interjection = none) : x.outgoing = x.reference := by
  rw [outgoing, quiet]
  rfl

/-- A block that awaits an answer is not its own answer. -/
theorem refused_of_part (judges : x.Judges r) (echoed : r.received = echo x.outgoing) {seq : Bool}
    (reference : x.reference.pcb = .info seq true) (quiet : x.interjection = none) :
    r.refusal? ≠ none := by
  intro accepted
  rw [Round.refusal?, judges.before] at accepted
  obtain ⟨-, reaction, t', rule⟩ := Transfer.refusal?_eq_none_iff.mp accepted
  rw [echoed, Loopback.block_echo, outgoing_of_quiet quiet] at rule
  obtain ⟨awaits, -⟩ := rule.of_info reference
  rw [reference] at awaits
  cases awaits

theorem refused_of_asks (judges : x.Judges r) (echoed : r.received = echo x.outgoing)
    (reference : x.reference.pcb = .request .resync) (quiet : x.interjection = none) :
    r.refusal? ≠ none := by
  intro accepted
  rw [Round.refusal?, judges.before] at accepted
  obtain ⟨-, reaction, t', rule⟩ := Transfer.refusal?_eq_none_iff.mp accepted
  rw [echoed, Loopback.block_echo, outgoing_of_quiet quiet] at rule
  obtain rfl := rule.reaction_of_resync reference
  cases rule with
  | restart _ answer =>
    rw [reference] at answer
    cases answer

/-- The report of a refused block passes for a request to send the block again. -/
theorem verdict_of_report (judges : x.Judges r) (echoed : r.received = echo x.outgoing) {seq : Bool}
    {fault : BlockFault} (reference : x.reference.pcb = .info seq true)
    (interjection : x.interjection = some (.plain (fault.report seq))) :
    r.verdict.reaction = .retransmit ∧ r.verdict.transfer = x.transfer.waited := by
  have outgoing : x.outgoing = .plain (fault.report seq) := by
    rw [Exchange.outgoing, interjection]
    rfl
  rw [outgoing] at echoed
  have pcb : r.received.pcb = fault.report seq := by
    rw [echoed, Loopback.pcb_echo]
    rfl
  have passed : x.sequence.fault? r.received = none := by
    refine Sequence.fault?_eq_none_iff.mpr ⟨?_, ?_, ?_⟩
    · rw [echoed, Loopback.isAbsent_echo]
    · rw [echoed, Loopback.isSound_echo]
    · simp only [Sequence.isWellFormed, pcb, BlockFault.report]
      rw [echoed]
      rfl
  have rule : x.transfer.waited.Rule x.reference (.block r.received.block) .retransmit
    x.transfer.waited := .again reference pcb
  rw [judges.judged.eq_of_rule passed rule]
  exact ⟨rfl, rfl⟩

/-- What an exchange does about hearing itself brings it closer to giving up. -/
theorem IsAlone.leads (alone : x.IsAlone) (regular : x.IsRegular) (judges : x.Judges r)
    (echoed : r.received = echo x.outgoing) (leads : x.Leads r.verdict y) :
    y.IsAlone ∧ y.loneliness < x.loneliness := by
  cases alone with
  | part reference quiet =>
    have refused := refused_of_part judges echoed reference quiet
    have fewer := ((regular.persists_of_refused judges refused leads).patience_lt regular.steady).1
    refine ⟨?_, loneliness_lt fewer⟩
    obtain ⟨fault, -, ⟨proceeds, -⟩ | ⟨-, rule⟩⟩ := regular.recovers judges refused
    · obtain rfl := leads.eq_of_proceed proceeds
      exact .asks rfl rfl
    · obtain rfl := leads.eq_of_interject (rule.reaction_of_info reference)
      exact .report reference rfl
  | asks reference quiet =>
    have refused := refused_of_asks judges echoed reference quiet
    have persists := regular.persists_of_refused judges refused leads
    have fewer := (persists.patience_lt regular.steady).1
    cases persists with
    | counts sent => exact absurd reference sent
    | asks sent => exact absurd reference sent
    | repeats _ same _ _ _ quiet' => exact ⟨.asks (same ▸ reference) quiet', loneliness_lt fewer⟩
  | report reference interjection =>
    obtain ⟨reaction, transfer⟩ := verdict_of_report judges echoed reference interjection
    have other : x.reference.pcb ≠ .request .resync := by simp [reference]
    cases leads with
    | again =>
      -- The counter of repetitions does not count yet.
      have same : Exchange.patience { x.judged r.verdict with
          transfer := r.verdict.transfer.resending } = x.patience := by
        simp only [patience, judged, transfer, if_neg other]
        rfl
      refine ⟨.part reference rfl, ?_⟩
      simp only [loneliness, same, interjection]
      exact Nat.lt_succ_self _
    | resync =>
      have few : x.transfer.errors < resyncLimit := by
        have steady := regular.steady
        rwa [IsSteady, if_neg other] at steady
      have left : x.patience = resendLimit + 1 + (resyncLimit - x.transfer.errors) := if_neg other
      have asked : Exchange.patience ((x.judged r.verdict).referring (.plain (.request .resync))) =
        resendLimit + 1 := if_pos rfl
      refine ⟨.asks rfl rfl, loneliness_lt ?_⟩
      rw [asked, left]
      omega
    | _ => simp_all

theorem IsAlone.ends (alone : x.IsAlone) (regular : x.IsRegular) (judges : x.Judges r)
    (echoed : r.received = echo x.outgoing) {ending : Ending} (ends : x.Ends r.verdict ending y) :
    ending = .unanswered := by
  cases alone with
  | part reference quiet =>
    have refused := refused_of_part judges echoed reference quiet
    exact (regular.unanswered_of_refused judges refused ends).1
  | asks reference quiet =>
    have refused := refused_of_asks judges echoed reference quiet
    exact (regular.unanswered_of_refused judges refused ends).1
  | report reference interjection =>
    obtain ⟨reaction, -⟩ := verdict_of_report judges echoed reference interjection
    cases ends with
    | unanswered => rfl
    | _ => simp_all

/-- An exchange that hears nothing but itself is given up, as no new start can be agreed on. -/
theorem IsAlone.runFor (alone : x.IsAlone) (regular : x.IsRegular) (idle : t.IsIdle) {n : Nat}
    (enough : x.loneliness ≤ n) : (x.runFor settings n t).ending = .unanswered := by
  let good (x : Exchange) (t : Traced Loopback) := x.IsAlone ∧ x.IsRegular ∧ t.IsIdle
  have goes {x y : Exchange} {r : Round Exchange} {t t' : Traced Loopback} (holds : good x t)
      (next : round settings x t = (r, .going y, t')) : good y t' ∧ y.loneliness < x.loneliness := by
    obtain ⟨alone, regular, idle⟩ := holds
    obtain ⟨judges, leads⟩ := leads_of_round next
    obtain ⟨echoed, idle'⟩ := echoed_of_round idle next
    obtain ⟨alone', fewer⟩ := alone.leads regular judges echoed leads
    exact ⟨⟨alone', regular.leads judges leads, idle'⟩, fewer⟩
  obtain ⟨past, y, t', r, -, -, reached, last⟩ := Course.closed_of_measure (round settings) good
    (fun x _ => x.loneliness)
    (fun {x _} holds => by
      have := holds.2.1.steady.patience_pos
      unfold loneliness
      omega)
    goes ⟨alone, regular, idle⟩ enough
  have holds : good y t' := reached.invariant (P := fun _ y t' => good y t') ⟨alone, regular, idle⟩
    fun holds next => (goes holds next).1
  obtain ⟨alone', regular', idle'⟩ := holds
  obtain ⟨judges, ends⟩ := ends_of_round last
  exact alone'.ends regular' judges (echoed_of_round idle' last).1 ends

theorem runFor_of_long (idle : t.IsIdle) (s : Sequence) {payload : Bytes}
    (long : maxInf < payload.length) (capacity : Nat) {n : Nat} (enough : 15 ≤ n) :
    ((start .transceive s (.start payload capacity)).runFor settings n t).ending = .unanswered := by
  have pcb := pcb_firstBlock s payload capacity
  rw [decide_eq_true long] at pcb
  refine (IsAlone.part pcb rfl).runFor (isRegular_start ..) idle (Nat.le_trans ?_ enough)
  have := (start .transceive s (.start payload capacity)).patience_le
  rw [loneliness]
  split <;> omega

end Exchange

/-! ## Sessions -/

namespace Session

open Loopback (settings)

variable {s : Session (Traced Loopback)}

/-- A session with a loopback between two operations, if no exchange has failed yet. -/
structure IsEchoing (s : Session (Traced Loopback)) : Prop where
  options : s.options = settings
  idle : s.backend.IsIdle
  alike : s.sequence.card = s.sequence.host

/-- A payload that fits into one block comes back, as far as there is room for it. -/
theorem IsEchoing.short (echoing : s.IsEchoing) {payload : Bytes} (fits : payload.length ≤ maxInf)
    (capacity : Nat) :
    let op := Operation.transceive payload capacity
    (s.perform op).1 = .completed (payload.take capacity) ∧ (s.perform op).2.IsEchoing ∧
      (s.perform op).2.backend.transmissions = s.backend.transmissions ++
        [(settings.rechecked (Frame.wire settings.node (.info s.sequence.next false) payload), true)] := by
  intro op
  let x := Exchange.start .transceive s.sequence (.start payload capacity)
  obtain ⟨ending, sequence, rounds, idle⟩ :=
    Exchange.runFor_of_short echoing.idle echoing.alike fits capacity 63
  have sends := x.transmissions_runFor settings 64 s.backend
  have seen : x.runFor settings 64 s.backend = (s.course op).map Host.view := by
    rw [← s.run_start op rfl, echoing.options]
    rfl
  rw [seen] at ending sequence rounds idle sends
  refine ⟨ending, ⟨echoing.options, idle, ?_⟩, sends.trans (congrArg _ ?_)⟩
  · rw [show (s.perform op).2.sequence = _ from sequence]
  · have pcb : x.reference.pcb = .info s.sequence.next false := by
      rw [Exchange.pcb_firstBlock, decide_eq_false (Nat.not_lt_of_le fits)]
    have inf : x.reference.inf = payload := List.take_of_length_le fits
    have wire : settings.wire x.outgoing = settings.rechecked (Frame.wire settings.node
        (.info s.sequence.next false) payload) := by
      rw [← pcb, ← inf]
      exact settings.wire_eq_rechecked x.reference
    rw [← wire]
    have sent := congrArg (List.map fun x => (settings.wire (Exchange.outgoing x), true)) rounds
    rw [List.map_map] at sent
    exact sent

theorem IsEchoing.long (echoing : s.IsEchoing) {payload : Bytes} (long : maxInf < payload.length)
    (capacity : Nat) : (s.perform (.transceive payload capacity)).1 = .unanswered := by
  have seen := s.run_start (.transceive payload capacity) rfl
  rw [echoing.options] at seen
  have enough : 15 ≤ 64 := by decide
  have ending := Exchange.runFor_of_long echoing.idle s.sequence long capacity enough
  exact (congrArg Course.ending seen).symm.trans ending

theorem IsEchoing.after (echoing : s.IsEchoing) {calls : List (Bytes × Nat)}
    (fit : ∀ call ∈ calls, call.1.length ≤ maxInf) :
    (s.after (calls.map fun call => .transceive call.1 call.2)).IsEchoing := by
  induction calls generalizing s with
  | nil => exact echoing
  | cons call calls ih =>
    have first := (echoing.short (fit call List.mem_cons_self) call.2).2.1
    exact ih first fun later member => fit later (List.mem_cons_of_mem _ member)

/-- Whatever payloads of up to one block a session with a loopback has sent, the next one comes back as the
    response to itself, after one transmission and with both sequence bits the same. A longer payload is
    given up. -/
theorem echoes_of_connect (endpoint : Loopback) : ∃ s : Session (Traced Loopback),
    (Setup.announced ⟨endpoint, []⟩).connect = .ok s ∧
      ∀ calls : List (Bytes × Nat), (∀ call ∈ calls, call.1.length ≤ maxInf) →
        let s' := s.after (calls.map fun call => .transceive call.1 call.2)
        ∀ payload capacity,
          let next := s'.perform (.transceive payload capacity)
          (payload.length ≤ maxInf → next.1 = .completed (payload.take capacity) ∧
            next.2.backend.transmissions = s'.backend.transmissions ++ [(settings.rechecked
              (Frame.wire settings.node (.info s'.sequence.next false) payload), true)] ∧
            next.2.sequence.card = next.2.sequence.host) ∧
          (maxInf < payload.length → next.1 = .failed (.hardFail "no response to RESYNC")) := by
  let s : Session (Traced Loopback) := ⟨⟨{ isOpen := true }, [.connect]⟩, settings, .fresh, none⟩
  have begun : s.IsEchoing := ⟨rfl, rfl, rfl⟩
  refine ⟨s, rfl, fun calls fit => ?_⟩
  intro s' payload capacity next
  have echoing : s'.IsEchoing := begun.after fit
  refine ⟨fun fits => ?_, fun long => echoing.long long capacity⟩
  obtain ⟨ending, echoing', sends⟩ := echoing.short fits capacity
  exact ⟨ending, sends, echoing'.alike⟩

/-- A payload comes back as far as there is room for it. The next one is longer than a block. -/
theorem echoes_of_two : ∃ s : Session (Traced Loopback),
    (Setup.announced ⟨{}, []⟩).connect = .ok s ∧
      (s.perform (.transceive [9, 8, 7] 2)).1 = .completed [9, 8] ∧
      ((s.after [.transceive [9, 8, 7] 2]).perform (.transceive (List.replicate 255 0) 4)).1 =
        .failed (.hardFail "no response to RESYNC") := by
  obtain ⟨s, connected, echoes⟩ := echoes_of_connect {}
  have short := (echoes [] nofun [9, 8, 7] 2).1 (by decide)
  have fit : ∀ call ∈ [(([9, 8, 7] : Bytes), 2)], call.1.length ≤ maxInf := by decide
  have longer : maxInf < (List.replicate 255 (0 : UInt8)).length := by
    rw [List.length_replicate]
    decide
  exact ⟨s, connected, short.1, (echoes [([9, 8, 7], 2)] fit _ 4).2 longer⟩

end Session

end CardLink
