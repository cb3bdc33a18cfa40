import CardLink.Proofs.Silencing
import CardLink.Proofs.Waits
import CardLink.Proofs.Wire
import Mathlib.Data.List.Forall2

/-!
# More time makes no difference

When the last part of the payload has been sent, the card may ask for more time, as often as it likes.
An exchange in which it does is the one in which it does not, with the grants sent in between
(`pauses_of_requests`): the frames before and after are the same, the counters are, and so is the way in
which it ends.

Only the bit of the host may be another one at the end, as after a refused frame: a request shows that
the host's last block has arrived. As soon as any other sound frame shows that too, the bits agree
(`last_withHost`).
-/

namespace CardLink

/-- A list with some elements put in from a position on. -/
def splice {α : Type} (n : Nat) (more list : List α) : List α := list.take n ++ more ++ list.drop n

theorem splice_append {α : Type} {n : Nat} {left : List α} (within : n ≤ left.length)
    (more right : List α) : splice n more (left ++ right) = splice n more left ++ right := by
  simp only [splice, List.take_append_of_le_length within, List.drop_append_of_le_length within,
    List.append_assoc]

theorem splice_of_length {α : Type} {n : Nat} {left : List α} (length : left.length = n)
    (more right : List α) : splice n more (left ++ right) = left ++ more ++ right := by
  rw [splice, List.take_left' length, List.drop_left' length]

theorem splice_concat {α : Type} (more list : List α) (a : α) :
    splice (list.length + 1) more (list ++ [a]) = list ++ [a] ++ more := by
  have length : (list ++ [a]).length = list.length + 1 := List.length_append
  have spliced := splice_of_length length more []
  rwa [List.append_nil, List.append_nil] at spliced

namespace ScriptedCard

/-- The card as if it had seen more from some positions on. -/
def recalling (card : ScriptedCard) (n m : Nat) (heard : List Bytes) (polls : List Duration) :
    ScriptedCard :=
  { card with heard := splice n heard card.heard, polls := splice m polls card.polls }

/-- Nothing is under way, and the card has seen at least so much. -/
structure HasSeen (n m : Nat) (card : ScriptedCard) : Prop where
  idle : card.IsIdle
  heard : n ≤ card.heard.length
  polls : m ≤ card.polls.length

end ScriptedCard

/-! ## Asking for time -/

/-- The card asks for so many times the usual wait. -/
structure Reply.AsksFor (o : Options) (reply : Reply) (factor : UInt8) : Prop where
  sound : (reply.heard o).isSound = true
  block : (reply.heard o).block = .valued (.request .wtx) factor

theorem Reply.asksFor_wire {o : Options} (plain : o.convention = none) (factor : UInt8) :
    AsksFor o (.frame (Frame.wire o.host (.request .wtx) [factor])) factor := by
  obtain ⟨block, -, sound, -⟩ := heard_wire plain (.valued (.request .wtx) factor)
  exact ⟨sound, block⟩

theorem Sequence.fault?_of_asked (s : Sequence) {received : Frame} {factor : UInt8}
    (sound : received.isSound = true) (asked : received.block = .valued (.request .wtx) factor) :
    s.fault? received = none := by
  obtain ⟨pcb, len, -⟩ := Frame.block_eq_valued_iff.mp asked
  refine fault?_eq_none_iff.mpr ⟨Frame.isAbsent_of_pcb_ne (by rw [pcb]; decide), sound, ?_⟩
  simp [isWellFormed, pcb, len, Supervisory.hasValue]

namespace Round

/-- The counters before a round. -/
def spent (r : Round Exchange) : Nat × Nat := (r.before.transfer.errors, r.before.transfer.resends)

/-- A sound frame has arrived in answer to a part of the payload. -/
structure IsAnswered (r : Round Exchange) : Prop where
  sent : r.before.reference.pcb.isInfo = true
  present : r.received.isAbsent = false
  sound : r.received.isSound = true

instance (r : Round Exchange) : Decidable r.IsAnswered :=
  decidable_of_iff (r.before.reference.pcb.isInfo = true ∧ r.received.isAbsent = false ∧
    r.received.isSound = true) ⟨fun ⟨sent, present, sound⟩ => ⟨sent, present, sound⟩,
      fun answered => ⟨answered.sent, answered.present, answered.sound⟩⟩

end Round

namespace Exchange

/-! ## The bit of the host -/

/-- A sound answer to a part of the payload settles what the bit of the host is. -/
theorem judge_of_answered (t : Transfer) (s : Sequence) (host : Bool) {reference : Block}
    {received : Frame} (sent : reference.pcb.isInfo = true) (present : received.isAbsent = false)
    (sound : received.isSound = true) :
    judge t (s.withHost host) reference received = judge t s reference received := by
  obtain ⟨seq, more, info⟩ := Pcb.isInfo_iff.mp sent
  have wellFormed : (s.withHost host).isWellFormed received = s.isWellFormed received := rfl
  have after : (s.withHost host).after reference.pcb received = s.after reference.pcb received := by
    simp only [Sequence.after, present, sound, wellFormed, info]
    rfl
  unfold judge
  rw [s.fault?_withHost, after]
  rfl

section Bus

variable {σ : Type} [Backend σ] {o : Options}

theorem spends_alike (o : Options) : Course.Ignores (σ := σ) SameButHost (fun _ => True)
    Round.spent (round o) where
  shows := by
    rintro x _ bus - - ⟨host, rfl⟩
    rfl
  step := (ignores_host o).step
  stays := (ignores_host o).stays

theorem round_of_answered {x : Exchange} {bus : σ} (host : Bool)
    (answered : (round o x bus).1.IsAnswered) :
    (round o (x.withHost host) bus).2 = (round o x bus).2 := by
  have verdict := judge_of_answered x.transfer.waited x.sequence host answered.sent answered.present
    answered.sound
  exact congrArg ((x.withHost host).follow · (x.converse o bus).2) verdict

/-- Once such an answer has arrived, it does not matter what the bit of the host was before. -/
theorem last_withHost (x : Exchange) (host : Bool) {n : Nat} {bus : σ}
    (answered : ∃ r ∈ (x.runFor o n bus).rounds, r.IsAnswered) :
    ((x.withHost host).runFor o n bus).last = (x.runFor o n bus).last := by
  refine Course.last_of_settled (ignores_host o) (fun bus both holds => ?_) trivial trivial
    ⟨host, rfl⟩ answered
  obtain ⟨host, rfl⟩ := both
  exact round_of_answered host holds

end Bus

/-! ## Being given time -/

variable {o : Options} {card card' : ScriptedCard} {x y z : Exchange}

/-- The card has been given more time, and nothing else has come of it but that the bit of the host may
    have moved. -/
def IsDelay (x y : Exchange) : Prop := ∃ host wait interjection,
  y = { x.withHost host with transfer := { x.transfer with wait }, interjection }

theorem IsDelay.refl (x : Exchange) : x.IsDelay x := ⟨_, _, _, rfl⟩

theorem IsDelay.trans (first : x.IsDelay y) (second : y.IsDelay z) : x.IsDelay z := by
  obtain ⟨_, _, _, rfl⟩ := first
  obtain ⟨_, _, _, rfl⟩ := second
  exact ⟨_, _, _, rfl⟩

theorem IsDelay.spent {r r' : Round Exchange} (delay : r.before.IsDelay r'.before) :
    r'.spent = r.spent := by
  obtain ⟨_, _, _, before⟩ := delay
  simp only [Round.spent, before]

/-- The card asks for more time in a round, and is given it in the next one. -/
theorem round_of_request (idle : card.IsIdle) {seq : Bool} {factor : UInt8}
    (sent : x.reference.pcb = .info seq false) (sound : (card.next o).isSound = true)
    (asked : (card.next o).block = .valued (.request .wtx) factor) :
    ∃ r y, round o x card =
        (r, .going y, (card.hearing (o.wire x.outgoing)).polled (x.timeout o)) ∧
      r.before = x ∧ x.IsDelay y ∧ y.outgoing = .valued (.response .wtx) factor ∧
      y.timeout o = o.waitAfter (o.wire y.outgoing) := by
  have passed := x.sequence.fault?_of_asked sound asked
  have wtx : (card.next o).block.pcb = .request .wtx := congrArg Block.pcb asked
  have verdict := judge_of_rule (t := x.transfer.waited) passed (.wait sent wtx)
  have bits : (x.sequence.answered x.reference.pcb).taken (card.next o).pcb =
      x.sequence.withHost seq := by
    rw [sent, show (card.next o).pcb = .request .wtx from wtx]
    rfl
  rw [asked, bits] at verdict
  refine ⟨_, _, round_of_judge idle verdict, rfl, ⟨seq, .ofByte factor, _, rfl⟩, rfl, ?_⟩
  change o.bwt.scale (WaitFactor.ofByte factor).val.toNat = o.waitAfter (o.wire (.valued _ factor))
  rw [o.waitAfter_grant, WaitFactor.toNat_ofByte]

/-- The frames that grant the card more time. -/
def grants (o : Options) (factors : List UInt8) : List Bytes :=
  factors.map fun factor => o.wire (.valued (.response .wtx) factor)

/-- The card asks for more time in a row of rounds. Once it has also been sent the last of the grants, it
    has seen the grants in addition to what it would have seen anyway. -/
theorem reaches_of_requests {requests rest : List Reply} {factors : List UInt8}
    (asks : List.Forall₂ (Reply.AsksFor o) requests factors) (idle : card.IsIdle)
    (script : card.replies = requests ++ rest) {seq : Bool}
    (sent : x.reference.pcb = .info seq false) :
    ∃ past y card', Reaches (round o) x card past y card' ∧ past.length = requests.length ∧
      x.IsDelay y ∧ (∀ r ∈ past, x.IsDelay r.before) ∧
      (card'.hearing (o.wire y.outgoing)).polled (y.timeout o) =
        { ((card.rescripted rest).hearing (o.wire x.outgoing)).polled (x.timeout o) with
          heard := card.heard ++ [o.wire x.outgoing] ++ grants o factors
          polls := card.polls ++ [x.timeout o] ++ (grants o factors).map o.waitAfter } := by
  induction asks generalizing x card with
  | nil =>
    refine ⟨[], x, card, .refl, rfl, .refl x, List.forall_mem_nil _, ?_⟩
    obtain rfl : card.replies = rest := script
    simp only [grants, List.map_nil, List.append_nil]
    rfl
  | @cons request factor requests factors asks _ ih =>
    have next : card.next o = request.heard o := by
      rw [ScriptedCard.next, script]
      rfl
    obtain ⟨r, y, first, before, delay, grant, wait⟩ :=
      round_of_request idle sent (next ▸ asks.sound) (next ▸ asks.block)
    have reference : y.reference = x.reference := by
      obtain ⟨_, _, _, rfl⟩ := delay
      rfl
    obtain ⟨past, z, card', reached, length, delays, all, seen⟩ :=
      ih (x := y) ((idle.hearing (o.wire x.outgoing)).polled (x.timeout o))
        (by rw [ScriptedCard.polled, ScriptedCard.hearing, script]; rfl) (reference ▸ sent)
    refine ⟨r :: past, z, card', reached.head first, by simp [length], delay.trans delays, ?_, ?_⟩
    · intro r' member
      rcases List.mem_cons.mp member with rfl | later
      · exact before ▸ .refl x
      · exact delay.trans (all r' later)
    · rw [seen, wait, grant]
      simp only [grants, List.map_cons, ScriptedCard.polled, ScriptedCard.hearing,
        ScriptedCard.rescripted, List.append_assoc, List.cons_append, List.nil_append]

/-! ## The exchange without -/

theorem follow_recalling (x : Exchange) (v : Verdict) (card : ScriptedCard) (n m : Nat)
    (heard : List Bytes) (polls : List Duration) : x.follow v (card.recalling n m heard polls) =
      ((x.follow v card).1, (x.follow v card).2.recalling n m heard polls) := by
  have rewritten := x.follow_rewritten v card card.replies (splice n heard card.heard)
    (splice m polls card.polls)
  obtain ⟨resets, failingResets, follows⟩ := x.follow_card v card
  rw [follows] at rewritten ⊢
  exact rewritten

theorem recalling_polled {n m : Nat} (seen : card.HasSeen n m) (heard : List Bytes)
    (polls : List Duration) (data : Bytes) (timeout : Duration) :
    ((card.recalling n m heard polls).hearing data).polled timeout =
      ((card.hearing data).polled timeout).recalling n m heard polls := by
  simp only [ScriptedCard.recalling, ScriptedCard.polled, ScriptedCard.hearing,
    splice_append seen.heard, splice_append seen.polls]

theorem hasSeen_of_round (idle : card.IsIdle) (o : Options) (x : Exchange) :
    (round o x card).2.2.HasSeen (card.heard.length + 1) (card.polls.length + 1) := by
  have idle' := (idle.hearing (o.wire x.outgoing)).polled (x.timeout o)
  simp only [round, converse_of_isIdle idle]
  obtain ⟨resets, failingResets, follows⟩ := x.follow_card
    (judge x.transfer.waited x.sequence x.reference (card.next o))
    ((card.hearing (o.wire x.outgoing)).polled (x.timeout o))
  rw [follows]
  refine ⟨⟨idle'.unread, idle'.readFault, idle'.pending, idle'.busHeld⟩, ?_, ?_⟩
  · simp [ScriptedCard.polled, ScriptedCard.hearing]
  · simp [ScriptedCard.polled, ScriptedCard.hearing]

/-- What a card has seen before does not matter to what it does. -/
theorem overlooks_recalling (o : Options) (n m : Nat) (heard : List Bytes) (polls : List Duration) :
    Course.Overlooks (ScriptedCard.recalling · n m heard polls) (ScriptedCard.HasSeen n m)
      (round o) where
  same x card seen := by
    have idle : (card.recalling n m heard polls).IsIdle :=
      ⟨seen.idle.unread, seen.idle.readFault, seen.idle.pending, seen.idle.busHeld⟩
    have next : (card.recalling n m heard polls).next o = card.next o := rfl
    simp only [round, converse_of_isIdle idle, converse_of_isIdle seen.idle, next,
      recalling_polled seen, follow_recalling]
  stays x card seen := by
    have after := hasSeen_of_round seen.idle o x
    exact ⟨after.idle, Nat.le_of_succ_le (Nat.le_trans (Nat.succ_le_succ seen.heard) after.heard),
      Nat.le_of_succ_le (Nat.le_trans (Nat.succ_le_succ seen.polls) after.polls)⟩

/-- Once the card has been given time, a round leads to what it would have led to before, with some bit
    of the host. -/
theorem round_of_delay (idle : card.IsIdle) (idle' : card'.IsIdle) (delay : x.IsDelay y)
    (script : card'.replies = card.replies) {n m : Nat} {heard : List Bytes} {polls : List Duration}
    (seen : (card'.hearing (o.wire y.outgoing)).polled (y.timeout o) =
      ((card.hearing (o.wire x.outgoing)).polled (x.timeout o)).recalling n m heard polls) :
    ∃ host, (round o y card').2.1 = (round o (x.withHost host) card).2.1 ∧
      (round o y card').2.2 = (round o (x.withHost host) card).2.2.recalling n m heard polls := by
  have next : card'.next o = card.next o := by rw [ScriptedCard.next, script, ScriptedCard.next]
  simp only [round, converse_of_isIdle idle, converse_of_isIdle idle', seen, next, follow_recalling]
  obtain ⟨host, _, _, rfl⟩ := delay
  exact ⟨host, rfl, rfl⟩

/-- The requests are all answered, and the round after them leads to what a round would have led to
    without them. -/
theorem exists_round_of_requests (idle : card.IsIdle) {requests : List Reply} {factors : List UInt8}
    (asks : List.Forall₂ (Reply.AsksFor o) requests factors) {seq : Bool}
    (sent : x.reference.pcb = .info seq false) :
    ∃ past y card' host,
      Reaches (round o) x (card.rescripted (requests ++ card.replies)) past y card' ∧
      past.length = requests.length ∧ x.IsDelay y ∧
      past.map Round.spent = List.replicate factors.length (round o x card).1.spent ∧
      (round o y card').2.1 = (round o (x.withHost host) card).2.1 ∧
      (round o y card').2.2 = (round o (x.withHost host) card).2.2.recalling (card.heard.length + 1)
        (card.polls.length + 1) (grants o factors) ((grants o factors).map o.waitAfter) := by
  have idle' := idle.rescripted (requests ++ card.replies)
  obtain ⟨past, y, card', reached, length, delay, delays, seen⟩ :=
    reaches_of_requests asks idle' rfl sent
  have played := played_of_reaches idle' reached
  have script : card'.replies = card.replies := by
    rw [played.replies, length]
    exact List.drop_left
  -- The card has seen nothing yet behind the grants.
  have recalls : (card'.hearing (o.wire y.outgoing)).polled (y.timeout o) =
      ((card.hearing (o.wire x.outgoing)).polled (x.timeout o)).recalling (card.heard.length + 1)
        (card.polls.length + 1) (grants o factors) ((grants o factors).map o.waitAfter) := by
    rw [seen]
    simp only [ScriptedCard.recalling, ScriptedCard.polled, ScriptedCard.hearing, splice_concat]
    rfl
  obtain ⟨host, steps, buses⟩ := round_of_delay idle played.idle delay script recalls
  refine ⟨past, y, card', host, reached, length, delay, ?_, steps, buses⟩
  refine List.eq_replicate_iff.mpr ⟨by rw [List.length_map, length, asks.length_eq], ?_⟩
  intro spent member
  obtain ⟨r, among, rfl⟩ := List.mem_map.mp member
  exact IsDelay.spent (delays r among)

/-- How an exchange with a card is drawn out by requests for more time in its round `i`, the round `r`. -/
structure IsDrawnOut (o : Options) (card : ScriptedCard) (i : Nat) (r : Round Exchange)
    (factors : List UInt8) (course paused : Course Exchange ScriptedCard) : Prop where
  ending : paused.ending = course.ending
  last : SameButHost course.last paused.last
  -- A sound answer to a part of the payload, then or later, settles the bit of the host, too
  settled : (∃ r' ∈ course.rounds.drop i, r'.IsAnswered) → paused.last = course.last
  -- The card has seen the grants behind the frame of the round, each with the wait that it calls for. All
  -- else about it is the same, the replies that are left among it
  bus : paused.bus = course.bus.recalling (card.heard.length + i + 1) (card.polls.length + i + 1)
    (grants o factors) ((grants o factors).map o.waitAfter)
  -- The requests count neither as errors nor as repetitions
  spent : paused.rounds.map Round.spent =
    splice i (List.replicate factors.length r.spent) (course.rounds.map Round.spent)

/-- The rounds before do not matter to this. -/
theorem IsDrawnOut.preceded {rounds : List (Round Exchange)} {r : Round Exchange}
    {factors : List UInt8} {course paused : Course Exchange ScriptedCard}
    (played : Played o card rounds card') (drawn : IsDrawnOut o card' 0 r factors course paused) :
    IsDrawnOut o card rounds.length r factors { course with rounds := rounds ++ course.rounds }
      { paused with rounds := rounds ++ paused.rounds } where
  ending := drawn.ending
  last := drawn.last
  settled := by
    simp only [List.drop_left]
    exact drawn.settled
  bus := by
    have bus := drawn.bus
    rw [played.heard, played.polls, List.length_append, List.length_append, List.length_map,
      List.length_map] at bus
    exact bus
  spent := by
    have spent := drawn.spent
    rw [List.map_append, List.map_append, splice_of_length (List.length_map ..), spent,
      List.append_assoc]
    rfl

/-- Once the last part of the payload has been sent, the card may ask for time at once. -/
theorem isDrawnOut_of_waiting (idle : card.IsIdle) {requests : List Reply} {factors : List UInt8}
    (asks : List.Forall₂ (Reply.AsksFor o) requests factors) {seq : Bool}
    (sent : x.reference.pcb = .info seq false) (n : Nat) :
    IsDrawnOut o card 0 (round o x card).1 factors (x.runFor o (n + 1) card)
      (x.runFor o (requests.length + (n + 1)) (card.rescripted (requests ++ card.replies))) := by
  obtain ⟨past, y, card', host, reached, length, delay, spent, steps, buses⟩ :=
    exists_round_of_requests idle asks sent
  -- Both courses are compared to one that begins with the other bit of the host.
  have other : x.SameButHost (x.withHost host) := ⟨host, rfl⟩
  have alike := Course.upTo_alike (spends_alike o) (n + 1) trivial trivial other card
  have rebased := Course.upTo_rebased_of_first (overlooks_recalling o _ _ _ _) n
    (hasSeen_of_round idle o _) steps buses
  rw [runFor, runFor, ← length, Course.upTo_of_reaches reached, rebased]
  refine ⟨alike.ending.symm, alike.last, fun answered => last_withHost x host answered,
    congrArg (ScriptedCard.recalling · _ _ _ _) alike.bus.symm, ?_⟩
  obtain ⟨rest, first⟩ := Course.exists_rounds_succ (round o) n (x.withHost host) card
  have now : (round o y card').1.spent = (round o (x.withHost host) card).1.spent :=
    IsDelay.spent delay
  rw [alike.rounds, first, List.map_append, spent, List.map_cons, List.map_cons, now]
  rfl

/-- Wherever the last part of the payload awaits an answer, the card may ask for time. -/
theorem isDrawnOut_of_requests (idle : card.IsIdle) {before requests rest : List Reply}
    {factors : List UInt8} (asks : List.Forall₂ (Reply.AsksFor o) requests factors)
    (script : card.replies = before ++ rest) {n : Nat} {r : Round Exchange} {seq : Bool}
    (taken : (x.runFor o n card).rounds[before.length]? = some r)
    (sent : r.before.reference.pcb = .info seq false) :
    IsDrawnOut o card before.length r factors (x.runFor o n card)
      (x.runFor o (n + requests.length) (card.rescripted (before ++ (requests ++ rest)))) := by
  obtain ⟨past, y, card', k, reached, length, rfl, rfl, idle', left⟩ :=
    exists_reaches_of_taken idle script taken
  have reached' := reaches_rescripted idle script reached (Nat.le_of_eq length) (requests ++ rest)
  rw [length, List.drop_length, List.nil_append] at reached'
  have drawn := isDrawnOut_of_waiting idle' asks sent k
  rw [left] at drawn
  have more : past.length + (k + 1) + requests.length =
      past.length + (requests.length + (k + 1)) := by omega
  rw [← length, more]
  simp only [runFor, Course.upTo_of_reaches reached, Course.upTo_of_reaches reached']
  exact drawn.preceded (played_of_reaches idle reached)

end Exchange

/-! ## Exchanges of a host -/

/-- If the last part of the payload awaits an answer in a round, a card that asks for time first, as often
    as it likes, makes no difference but that time: it is sent the grants in addition, and the exchange
    ends in the same way, with the same response received, the same replies left and the same bit of the
    card. Its counters go on from where they were. The bit of the host may be another one, unless it is
    settled later on. -/
theorem Host.pauses_of_requests {card : ScriptedCard} (idle : card.IsIdle) (purpose : Purpose)
    (s : Sequence) (t : Transfer) (o : Options) {i : Nat} (within : i ≤ card.replies.length)
    {requests : List Reply} {factors : List UInt8}
    (asks : List.Forall₂ (Reply.AsksFor o) requests factors) {r : Round Host} {seq : Bool}
    (taken : ((start purpose s t).run o card).rounds[i]? = some r)
    (sent : (r.map view).before.reference.pcb = .info seq false) :
    let course := (start purpose s t).run o card
    let paused := (start purpose s t).run o (card.rescripted (splice i requests card.replies))
    Exchange.IsDrawnOut o card i (r.map view) factors (course.map view) (paused.map view) := by
  intro course paused
  have length := List.length_take_of_le within
  have script := (List.take_append_drop i card.replies).symm
  have horizon : Backend.horizon (card.rescripted (splice i requests card.replies)) =
      Backend.horizon card + requests.length := by
    change (splice i requests card.replies).length + 8 = card.replies.length + 8 + _
    simp only [splice, List.length_append, List.length_drop, length]
    omega
  have viewed := taken_run_start taken
  rw [← length, Exchange.run] at viewed
  have drawn := Exchange.isDrawnOut_of_requests idle asks script viewed sent
  rw [length, ← horizon, ← List.append_assoc] at drawn
  rw [show course.map view = _ from (run_start ..).symm,
    show paused.map view = _ from (run_start ..).symm]
  exact drawn

/-- A card that has been told of an error asks for time twice before it responds. Its response settles the
    bit of the host. -/
theorem Host.pauses_of_hesitating :
    let card := ScriptedCard.ofReplies [.silence, .frame (Frame.wire 0xA5 (.info false false) [9])]
    let requests := [Reply.frame (Frame.wire 0xA5 (.request .wtx) [3]),
      Reply.frame (Frame.wire 0xA5 (.request .wtx) [0])]
    let course := (start .transceive .fresh (.into [7] [0, 0])).run {} card
    let paused := (start .transceive .fresh (.into [7] [0, 0])).run {}
      (card.rescripted (splice 1 requests card.replies))
    card.IsIdle ∧ 1 ≤ card.replies.length ∧ List.Forall₂ (Reply.AsksFor {}) requests [3, 0] ∧
      (∃ r, course.rounds[1]? = some r ∧ (r.map view).before.reference.pcb = .info false false ∧
        Exchange.IsDrawnOut {} card 1 (r.map view) [3, 0] (course.map view) (paused.map view)) ∧
      course.ending = .completed [9] ∧ paused.last.view = course.last.view := by
  intro card requests course paused
  have idle : card.IsIdle := ScriptedCard.isIdle_ofReplies _
  have asks : List.Forall₂ (Reply.AsksFor {}) requests [3, 0] :=
    .cons (Reply.asksFor_wire rfl 3) (.cons (Reply.asksFor_wire rfl 0) .nil)
  have waits : course.rounds[1]?.map (fun r => (r.map view).before.reference.pcb) =
      some (.info false false) := by decide +kernel
  obtain ⟨r, taken, sent⟩ := Option.map_eq_some_iff.mp waits
  have drawn := Host.pauses_of_requests idle .transceive .fresh (.into [7] [0, 0]) {}
    (show 1 ≤ card.replies.length by decide) asks taken sent
  refine ⟨idle, by decide, asks, ⟨r, taken, sent, drawn⟩, by decide +kernel,
    drawn.settled (by decide +kernel)⟩

end CardLink
