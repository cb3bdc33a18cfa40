import CardLink.Proofs.Noise
import CardLink.Proofs.Refinement

/-!
# Delivery over a noisy line

A card that acknowledges every part of the payload and then responds in a chain of blocks is heard
correctly although at most two noisy replies precede each of its blocks (`delivery_of_noisy`): the
exchange is completed with its response, the payload is sent once and in order, and no new start is
asked for. Each honest reply sets the counters back, so the noise never adds up.

The proof is by induction on the blocks of the response (`delivery_of_chain`), and before that on the
parts of the payload that are still to be acknowledged (`delivery_of_payload`).
-/

namespace CardLink

/-! ## Honest scripts -/

/-- The script that a card plays to carry out some actions, for a host with these options. -/
def Reply.scripted (o : Options) (actions : List CardAction) : List Reply :=
  (({ settings := o } : ScriptedCard).playing actions).2.replies

/-- The reply that carries out an action. -/
def CardAction.reply (o : Options) (action : CardAction) : Reply :=
  match action.content? with
  | some (pcb, inf) => .frame (Frame.wire o.host pcb inf)
  | none => .silence

/-- The information field of an action fits into one block. -/
def CardAction.Fits (action : CardAction) : Prop :=
  ∀ pcb inf, action.content? = some (pcb, inf) → inf.length ≤ maxInf

theorem ScriptedCard.actionReply_of_fits (card : ScriptedCard) {action : CardAction}
    (fits : action.Fits) : card.actionReply action = .ok (action.reply card.settings) := by
  unfold actionReply CardAction.reply
  cases content : action.content? with
  | none => rfl
  | some content' =>
    obtain ⟨pcb, inf⟩ := content'
    simp [frameReply, Frame.encode_eq, fits pcb inf content, Except.map]

theorem ScriptedCard.replies_playing (card : ScriptedCard) {actions : List CardAction}
    (fits : ∀ action ∈ actions, action.Fits) :
    (card.playing actions).2.replies = card.replies ++ actions.map (CardAction.reply card.settings) := by
  induction actions generalizing card with
  | nil => exact (List.append_nil _).symm
  | cons action actions ih =>
    rw [playing, card.actionReply_of_fits (fits action List.mem_cons_self)]
    have rest := ih (card.push [action.reply card.settings]) fun action member =>
      fits action (List.mem_cons_of_mem _ member)
    rw [rest, push, List.append_assoc]
    rfl

theorem Reply.scripted_eq (o : Options) {actions : List CardAction}
    (fits : ∀ action ∈ actions, action.Fits) : scripted o actions = actions.map (CardAction.reply o) :=
  ScriptedCard.replies_playing _ fits

theorem CardAction.respond_eq (data : Bytes) {chunk : Nat} (pos : 1 ≤ chunk) (first : Bool) :
    ∃ piece pieces, respond data chunk first = chain first (piece :: pieces) ∧
      (piece :: pieces).flatten = data ∧ ∀ p ∈ piece :: pieces, p.length ≤ chunk := by
  cases data with
  | nil => exact ⟨[], [], rfl, rfl, by simp⟩
  | cons byte rest =>
    have cut : Bytes.chunks chunk (byte :: rest) = (byte :: rest).take (max 1 chunk) ::
        Bytes.chunks chunk ((byte :: rest).drop (max 1 chunk)) := by rw [Bytes.chunks]
    refine ⟨_, _, ?_, cut ▸ Bytes.flatten_chunks .., ?_⟩
    · rw [respond, ← cut]
      rfl
    · intro p member
      rw [← cut] at member
      exact Bytes.length_le_of_mem_chunks pos member

/-! ## Honest replies -/

namespace Exchange

variable {o : Options} {x : Exchange} {card : ScriptedCard} {rest : List Reply}

def Offers (o : Options) (card : ScriptedCard) (b : Block) : Prop :=
  card.replies.head? = some (.frame (Frame.wire o.host b.pcb b.inf))

theorem next_of_offers (plain : o.convention = none) {b : Block} (offers : Offers o card b) :
    (card.next o).block = b ∧ (card.next o).isAbsent = false ∧ (card.next o).isSound = true ∧
      (card.next o).len = UInt8.ofNat b.inf.length := by
  rw [ScriptedCard.next, offers]
  exact Reply.heard_wire plain b

theorem passed_of_ack (plain : o.convention = none) (s : Sequence) {seq : Bool}
    (offers : Offers o card (.plain (.ack seq))) :
    s.fault? (card.next o) = none ∧ (card.next o).block = .plain (.ack seq) := by
  obtain ⟨block, present, sound, empty⟩ := next_of_offers plain offers
  refine ⟨Sequence.fault?_eq_none_iff.mpr ⟨present, sound, ?_⟩, block⟩
  have pcb : (card.next o).pcb = .ack seq := congrArg Block.pcb block
  simp [Sequence.isWellFormed, pcb, empty, Block.plain]

/-- An information block with the other bit than the last one passes the check. -/
theorem passed_of_info (plain : o.convention = none) {s : Sequence} {b : Block} {more : Bool}
    (info : b.pcb = .info (!s.card) more) (offers : Offers o card b) :
    s.fault? (card.next o) = none ∧ (card.next o).block = b := by
  obtain ⟨block, present, sound, -⟩ := next_of_offers plain offers
  refine ⟨Sequence.fault?_eq_none_iff.mpr ⟨present, sound, ?_⟩, block⟩
  have pcb : (card.next o).pcb = .info (!s.card) more := (congrArg Block.pcb block).trans info
  simp [Sequence.isWellFormed, pcb]

/-- An acknowledgement of a part of the payload is followed by the next part. -/
theorem round_of_ack (plain : o.convention = none) (idle : card.IsIdle) {seq : Bool}
    (sent : x.reference.pcb = .info seq true) (offers : Offers o card (.plain (.ack !seq))) :
    ∃ r, round o x card = (r, .going
        { x with
          sequence := { x.sequence with host := seq }
          transfer := x.transfer.waited.advanced.progressed
          reference := x.transfer.nextBlock !seq
          interjection := none },
        (card.hearing (o.wire x.outgoing)).polled (x.timeout o)) ∧ r.before = x := by
  obtain ⟨passed, block⟩ := passed_of_ack plain x.sequence offers
  have verdict := judge_of_rule (t := x.transfer.waited) passed
    (.next sent (by rw [block]; rfl))
  have pcb : (card.next o).pcb = .ack !seq := congrArg Block.pcb block
  rw [sent, pcb] at verdict
  exact ⟨_, round_of_judge idle verdict, rfl⟩

theorem round_of_part (plain : o.convention = none) (idle : card.IsIdle) {b : Block}
    (awaits : x.reference.pcb.AwaitsInfo (!x.sequence.card))
    (info : b.pcb = .info (!x.sequence.card) true) (offers : Offers o card b) :
    ∃ r, round o x card = (r, .going
        { x with
          sequence := ⟨(x.sequence.answered x.reference.pcb).host, !x.sequence.card⟩
          transfer := (x.transfer.waited.taking b).progressed
          reference := .plain (.ack x.sequence.card)
          interjection := none },
        (card.hearing (o.wire x.outgoing)).polled (x.timeout o)) ∧ r.before = x := by
  obtain ⟨passed, block⟩ := passed_of_info plain info offers
  have verdict := judge_of_rule (t := x.transfer.waited) passed
    (.part awaits (by rw [block]; exact info))
  have pcb : (card.next o).pcb = .info (!x.sequence.card) true := (congrArg Block.pcb block).trans info
  rw [pcb, block, Bool.not_not] at verdict
  exact ⟨_, round_of_judge idle verdict, rfl⟩

theorem round_of_last (plain : o.convention = none) (idle : card.IsIdle) {b : Block}
    (awaits : x.reference.pcb.AwaitsInfo (!x.sequence.card))
    (info : b.pcb = .info (!x.sequence.card) false) (offers : Offers o card b) :
    ∃ r, round o x card = (r, .ended (.completed (x.transfer.waited.taking b).response)
        { x with
          sequence := ⟨(x.sequence.answered x.reference.pcb).host, !x.sequence.card⟩
          transfer := x.transfer.waited.taking b
          interjection := none },
        (card.hearing (o.wire x.outgoing)).polled (x.timeout o)) ∧ r.before = x := by
  obtain ⟨passed, block⟩ := passed_of_info plain info offers
  have verdict := judge_of_rule (t := x.transfer.waited) passed
    (.last awaits (by rw [block]; exact info))
  have pcb : (card.next o).pcb = .info (!x.sequence.card) false := (congrArg Block.pcb block).trans info
  rw [pcb, block] at verdict
  exact ⟨_, round_of_judge idle verdict, rfl⟩

/-! ## Delivery -/

/-- An exchange that was completed in a number of rounds and sent these information blocks, and apart
    from them only receive-ready blocks. -/
structure Delivery (response : Bytes) (final : Sequence) (blocks : List Block) (rounds : Nat)
    (course : Course Exchange ScriptedCard) : Prop where
  ending : course.ending = .completed response
  response : course.last.transfer.response = response
  sequence : course.last.sequence = final
  rounds : course.rounds.length = rounds
  blocks : (course.rounds.map fun r => r.before.outgoing).filter (fun b => b.pcb.isInfo) = blocks
  others : ∀ r ∈ course.rounds, r.before.outgoing.pcb.isInfo = true ∨
    ∃ seq other parity, r.before.outgoing.pcb = .ready seq other parity

/-- Nothing is left from refused frames. -/
structure IsAtRest (x : Exchange) : Prop where
  interjection : x.interjection = none
  errors : x.transfer.errors = 0
  resends : x.transfer.resends = 0

theorem filter_of_leadsSent {first : Block} {sent : List Block} (leads : LeadsSent first sent) :
    sent.filter (fun b => b.pcb.isInfo) = [first].filter (fun b => b.pcb.isInfo) := by
  obtain ⟨extra, rfl, ready⟩ := leads
  have none : extra.filter (fun b => b.pcb.isInfo) = [] := by
    refine List.filter_eq_nil_iff.mpr fun b member => ?_
    obtain ⟨seq, other, parity, pcb⟩ := ready b member
    simp [pcb, Pcb.isInfo]
  rw [← List.singleton_append, List.filter_append, none, List.append_nil]

theorem others_of_leadsSent {rounds : List (Round Exchange)} (sent : IsPlain x.reference.pcb)
    (leads : LeadsSent x.reference (rounds.map fun r => r.before.outgoing)) :
    ∀ r ∈ rounds, r.before.outgoing.pcb.isInfo = true ∨
      ∃ seq other parity, r.before.outgoing.pcb = .ready seq other parity := by
  obtain ⟨extra, rounds', ready⟩ := leads
  intro r member
  have among := List.mem_map_of_mem (f := fun r : Round Exchange => r.before.outgoing) member
  rw [rounds'] at among
  rcases List.mem_cons.mp among with first | later
  · rw [first]
    generalize x.reference.pcb = pcb at sent
    cases sent with
    | info => exact .inl rfl
    | ack => exact .inr ⟨_, _, _, rfl⟩
  · exact .inr (ready _ later)

/-- Some rounds with noise, after which the exchange still waits for the same block and an honest reply
    is next. -/
structure Approach (o : Options) (x : Exchange) (card : ScriptedCard) (reply : Reply)
    (honest : List Reply) (past : List (Round Exchange)) (y : Exchange) (card' : ScriptedCard)
    (script : List Reply) : Prop where
  reached : Reaches (round o) x card past y card'
  calm : y.calm = x.calm
  idle : card'.IsIdle
  replies : card'.replies = reply :: script
  noisy : Reply.Noisy o honest script
  length : card.replies.length = past.length + (script.length + 1)
  sent : LeadsSent x.reference ((past.map fun r => r.before.outgoing) ++ [y.outgoing])

theorem exists_approach (plain : o.convention = none) (rest : x.IsAtRest)
    (sent : IsPlain x.reference.pcb) (idle : card.IsIdle) {reply : Reply} {honest : List Reply}
    (noisy : Reply.Noisy o (reply :: honest) card.replies) :
    ∃ past y card' script, Approach o x card reply honest past y card' script := by
  generalize replies : card.replies = all at noisy
  cases noisy with
  | @cons noise _ _ script few noisy honest =>
    obtain ⟨past, y, card', reached, length, idle', replies', calm, leads⟩ :=
      reaches_of_noise plain noisy idle replies sent (by rw [rest.errors]; omega)
        (by rw [rest.resends]; omega)
    have outgoing : x.outgoing = x.reference := by rw [outgoing, rest.interjection]; rfl
    rw [outgoing] at leads
    refine ⟨past, y, card', script, reached, calm, idle', replies', honest, ?_, leads⟩
    rw [replies, List.length_append, List.length_cons, length]

section Approach

variable {reply : Reply} {honest script : List Reply} {past : List (Round Exchange)} {y z : Exchange}
variable {card' card'' : ScriptedCard} {r : Round Exchange} {response : Bytes} {final : Sequence}
variable {blocks : List Block} {n : Nat}

theorem Approach.sequence_eq (approach : Approach o x card reply honest past y card' script) :
    y.sequence = x.sequence := by
  change y.calm.sequence = x.calm.sequence
  rw [approach.calm]

theorem Approach.reference_eq (approach : Approach o x card reply honest past y card' script) :
    y.reference = x.reference := by
  change y.calm.reference = x.calm.reference
  rw [approach.calm]

/-- The honest reply is used up by the next round. -/
theorem Approach.replies_polled (approach : Approach o x card reply honest past y card' script)
    (data : Bytes) (timeout : Duration) : ((card'.hearing data).polled timeout).replies = script := by
  change card'.replies.tail = script
  rw [approach.replies]
  rfl

theorem Approach.leadsSent (approach : Approach o x card reply honest past y card' script)
    (before : r.before = y) : LeadsSent x.reference ((past ++ [r]).map fun r => r.before.outgoing) := by
  rw [List.map_append, List.map_cons, List.map_nil, before]
  exact approach.sent

theorem Approach.delivery_of_going (approach : Approach o x card reply honest past y card' script)
    (sent : IsPlain x.reference.pcb) (next : round o y card' = (r, .going z, card''))
    (before : r.before = y)
    (delivery : Delivery response final blocks script.length (z.runFor o n card'')) :
    Delivery response final ([x.reference].filter (fun b => b.pcb.isInfo) ++ blocks)
      card.replies.length (x.runFor o (past.length + (n + 1)) card) := by
  have leads := approach.leadsSent before
  have course := Course.upTo_of_reaches (approach.reached.tail next) n
  rw [List.length_append, List.length_singleton, Nat.add_assoc, Nat.add_comm 1] at course
  rw [runFor, course]
  refine ⟨delivery.ending, delivery.response, delivery.sequence, ?_, ?_, ?_⟩
  · have rounds := delivery.rounds
    have length := approach.length
    change (past ++ [r] ++ (z.runFor o n card'').rounds).length = _
    simp only [List.length_append, List.length_singleton]
    omega
  · change ((past ++ [r] ++ (z.runFor o n card'').rounds).map _).filter _ = _
    rw [List.map_append, List.filter_append, filter_of_leadsSent leads, delivery.blocks]
  · intro r' member
    rcases List.mem_append.mp member with sooner | later
    · exact others_of_leadsSent sent leads r' sooner
    · exact delivery.others r' later

theorem Approach.delivery_of_ended (approach : Approach o x card reply [] past y card' script)
    (sent : IsPlain x.reference.pcb)
    (next : round o y card' = (r, .ended (.completed response) z, card''))
    (before : r.before = y) (written : z.transfer.response = response) :
    Delivery response z.sequence ([x.reference].filter fun b => b.pcb.isInfo) card.replies.length
      (x.runFor o (past.length + (n + 1)) card) := by
  have leads := approach.leadsSent before
  have course := Course.upTo_of_reaches approach.reached (n + 1)
  rw [Course.upTo_ended n next] at course
  rw [runFor, course]
  have noMore : script = [] := by
    have noisy := approach.noisy
    cases noisy
    rfl
  refine ⟨rfl, written, rfl, ?_, filter_of_leadsSent leads, others_of_leadsSent sent leads⟩
  rw [approach.length, noMore, List.length_append]
  rfl

end Approach

/-! ## The chain of the card -/

theorem isPlain_of_awaitsInfo {pcb : Pcb} {c : Bool} (awaits : pcb.AwaitsInfo c) : IsPlain pcb := by
  cases awaits with
  | last => exact .info
  | ack => exact .ack

theorem eq_of_calm {t t' : Transfer} (calm : t.calm = t'.calm) : t.ifs = t'.ifs ∧
    t.pending = t'.pending ∧ t.response = t'.response ∧ t.room = t'.room := by
  simp only [Transfer.calm, Transfer.mk.injEq, and_true] at calm
  obtain ⟨payload, filled, buffer, written, ifs⟩ := calm
  refine ⟨ifs, ?_, ?_, ?_⟩
  · rw [Transfer.pending, Transfer.pending, payload, filled]
  · rw [Transfer.response, Transfer.response, buffer, written]
  · rw [Transfer.room, Transfer.room, Transfer.capacity, Transfer.capacity, buffer, written]

theorem taking_of_calm {t t' : Transfer} (calm : t.calm = t'.calm) {b : Block}
    (info : b.pcb.isInfo = true) :
    (t.waited.taking b).response = t'.response ++ b.inf.take t'.room ∧
      (t.waited.taking b).room = t'.room - (b.inf.take t'.room).length := by
  obtain ⟨-, -, response, room⟩ := eq_of_calm calm
  rw [Transfer.response_taking info, Transfer.room_taking info, ← response, ← room]
  exact ⟨rfl, rfl⟩

/-- The card sends its response in blocks with alternating bits. -/
theorem delivery_of_chain (plain : o.convention = none) (pieces : List Bytes) :
    ∀ {x : Exchange} {card : ScriptedCard} {piece : Bytes}, x.IsAtRest →
      x.reference.pcb.AwaitsInfo (!x.sequence.card) → card.IsIdle →
      (∀ p ∈ piece :: pieces, p.length ≤ maxInf) →
      Reply.Noisy o ((CardAction.chain (!x.sequence.card) (piece :: pieces)).map (CardAction.reply o))
        card.replies →
      ∀ n, card.replies.length ≤ n →
        Delivery (x.transfer.response ++ (piece :: pieces).flatten.take x.transfer.room)
          ⟨(x.sequence.answered x.reference.pcb).host,
            Sequence.bitAt (!x.sequence.card) pieces.length⟩
          ([x.reference].filter fun b => b.pcb.isInfo) card.replies.length (x.runFor o n card) := by
  -- By induction on the pieces behind the next one. Every part of the response sets the counters back,
  -- so an exchange that is at rest is at rest again after its acknowledgement.
  induction pieces with
  | nil =>
    intro x card piece rest awaits idle fits noisy n enough
    have sent := isPlain_of_awaitsInfo awaits
    obtain ⟨past, y, card', script, approach⟩ := exists_approach plain rest sent idle noisy
    have sequence := approach.sequence_eq
    have reference := approach.reference_eq
    let b : Block := ⟨.info (!x.sequence.card) false, piece, fits piece List.mem_cons_self⟩
    have offers : Offers o card' b := by rw [Offers, approach.replies]; rfl
    obtain ⟨r, last, before⟩ := round_of_last plain approach.idle (x := y) (b := b)
      (by rw [reference, sequence]; exact awaits) (by rw [sequence]) offers
    have length := approach.length
    have rounds : n = past.length + ((n - past.length - 1) + 1) := by omega
    have delivery := approach.delivery_of_ended (n := n - past.length - 1) sent last before rfl
    rw [← rounds, (taking_of_calm (congrArg Exchange.transfer approach.calm) rfl).1] at delivery
    simp only [List.flatten_cons, List.flatten_nil, List.append_nil]
    rw [sequence, reference] at delivery
    exact delivery
  | cons following pieces ih =>
    intro x card piece rest awaits idle fits noisy n enough
    have sent := isPlain_of_awaitsInfo awaits
    obtain ⟨past, y, card', script, approach⟩ := exists_approach plain rest sent idle noisy
    have sequence := approach.sequence_eq
    have reference := approach.reference_eq
    let b : Block := ⟨.info (!x.sequence.card) true, piece, fits piece List.mem_cons_self⟩
    have offers : Offers o card' b := by rw [Offers, approach.replies]; rfl
    obtain ⟨r, next, before⟩ := round_of_part plain approach.idle (x := y) (b := b)
      (by rw [reference, sequence]; exact awaits) (by rw [sequence]) offers
    rw [sequence, reference] at next
    have length := approach.length
    let z : Exchange :=
      { y with
        sequence := ⟨(x.sequence.answered x.reference.pcb).host, !x.sequence.card⟩
        transfer := (y.transfer.waited.taking b).progressed
        reference := .plain (.ack x.sequence.card)
        interjection := none }
    let bus := (card'.hearing (o.wire y.outgoing)).polled (y.timeout o)
    have replies : bus.replies = script := approach.replies_polled ..
    have toggled : (!z.sequence.card) = x.sequence.card := Bool.not_not _
    have idle' : bus.IsIdle := (approach.idle.hearing _).polled _
    have later := ih (x := z) ⟨rfl, rfl, rfl⟩ (by rw [toggled]; exact .ack) idle'
      (fun p member => fits p (List.mem_cons_of_mem _ member))
      (by rw [replies, toggled]; simpa using approach.noisy) (n - past.length - 1) (by rw [replies]; omega)
    rw [replies] at later
    have delivery := approach.delivery_of_going sent next before later
    have rounds : past.length + ((n - past.length - 1) + 1) = n := by omega
    obtain ⟨response, room⟩ := taking_of_calm (congrArg Exchange.transfer approach.calm) (b := b) rfl
    change z.transfer.response = x.transfer.response ++ piece.take x.transfer.room at response
    change z.transfer.room = x.transfer.room - (piece.take x.transfer.room).length at room
    have bit : Sequence.bitAt (!z.sequence.card) pieces.length =
        Sequence.bitAt (!x.sequence.card) (following :: pieces).length := by
      rw [List.length_cons, ← Sequence.bitAt_not]
    have noBlock : [z.reference].filter (fun b => b.pcb.isInfo) = [] := rfl
    have whole : (piece :: following :: pieces).flatten.take x.transfer.room =
        piece.take x.transfer.room ++ (following :: pieces).flatten.take
          (x.transfer.room - (piece.take x.transfer.room).length) := by
      rw [List.flatten_cons, List.take_append, List.length_take]
      congr 2
      omega
    rw [rounds, response, room, bit, noBlock, List.append_nil, List.append_assoc, ← whole] at delivery
    exact delivery

/-! ## The parts of the payload -/

theorem not_isEmpty_eq (bytes : Bytes) :
    (!bytes.isEmpty) = decide (0 < (bytes.length + 253) / 254) := by
  cases bytes with
  | nil => rfl
  | cons byte rest =>
    refine (decide_eq_true ?_).symm
    rw [List.length_cons]
    omega

/-- So many blocks of the largest size are left after the next one. -/
theorem parts_advanced {t : Transfer} (largest : t.ifs = .largest) :
    (t.advanced.pending.length + 253) / 254 = (t.pending.length + 253) / 254 - 1 := by
  have cut := congrArg List.length t.nextInf_append_pending
  have size : t.ifs.toNat = 254 := by
    rw [largest]
    rfl
  rw [List.length_append, Transfer.nextInf, List.length_take, size] at cut
  omega

/-- The card acknowledges the parts of the payload that are left, and then sends its response. -/
theorem delivery_of_payload (plain : o.convention = none) {piece : Bytes} {pieces : List Bytes}
    (fits : ∀ p ∈ piece :: pieces, p.length ≤ maxInf) (left : Nat) :
    ∀ {x : Exchange} {card : ScriptedCard} {seq : Bool}, x.IsAtRest → x.transfer.ifs = .largest →
      left = (x.transfer.pending.length + 253) / 254 →
      x.reference.pcb = .info seq (decide (0 < left)) → card.IsIdle →
      Reply.Noisy o ((CardAction.acknowledge seq left ++
        CardAction.chain (!x.sequence.card) (piece :: pieces)).map (CardAction.reply o)) card.replies →
      ∀ n, card.replies.length ≤ n → ∃ earlier last,
        Delivery (x.transfer.response ++ (piece :: pieces).flatten.take x.transfer.room)
          ⟨Sequence.bitAt seq left, Sequence.bitAt (!x.sequence.card) pieces.length⟩
          (earlier ++ [last]) card.replies.length (x.runFor o n card) ∧
        earlier.length = left ∧ last.pcb = .info (Sequence.bitAt seq left) false ∧
        (earlier ++ [last]).flatMap Block.inf = x.reference.inf ++ x.transfer.pending := by
  -- By induction on the parts that are still to be filled. The last one awaits the response.
  induction left with
  | zero =>
    intro x card seq rest ifs parts sent idle noisy n enough
    have awaits : x.reference.pcb.AwaitsInfo (!x.sequence.card) := by rw [sent]; exact .last
    have delivery := delivery_of_chain plain pieces rest awaits idle fits noisy n enough
    have block : [x.reference].filter (fun b => b.pcb.isInfo) = [] ++ [x.reference] :=
      List.filter_cons_of_pos (by rw [sent]; rfl)
    have nothing : x.transfer.pending = [] := List.eq_nil_of_length_eq_zero (by omega)
    rw [block, sent] at delivery
    refine ⟨[], x.reference, delivery, rfl, sent, ?_⟩
    rw [nothing]
    simp
  | succ left ih =>
    intro x card seq rest ifs parts sent idle noisy n enough
    have plainly : IsPlain x.reference.pcb := by rw [sent]; exact .info
    obtain ⟨past, y, card', script, approach⟩ := exists_approach plain rest plainly idle noisy
    have sequence := approach.sequence_eq
    have reference := approach.reference_eq
    obtain ⟨ifs', pending, response, room⟩ := eq_of_calm (congrArg Exchange.transfer approach.calm)
    have offers : Offers o card' (.plain (.ack !seq)) := by rw [Offers, approach.replies]; rfl
    obtain ⟨r, next, before⟩ := round_of_ack plain approach.idle (x := y)
      (by rw [reference]; simpa using sent) offers
    let z : Exchange :=
      { y with
        sequence := { y.sequence with host := seq }
        transfer := y.transfer.waited.advanced.progressed
        reference := y.transfer.nextBlock !seq
        interjection := none }
    let bus := (card'.hearing (o.wire y.outgoing)).polled (y.timeout o)
    have replies : bus.replies = script := approach.replies_polled ..
    have rest' : y.transfer.nextInf ++ z.transfer.pending = x.transfer.pending := by
      rw [← pending]
      exact y.transfer.nextInf_append_pending
    have length := approach.length
    have fewer : left = (z.transfer.pending.length + 253) / 254 := by
      have advanced := parts_advanced (ifs'.trans ifs)
      rw [pending, ← parts] at advanced
      exact advanced.symm
    have more : z.reference.pcb = .info (!seq) (decide (0 < left)) := by
      change Pcb.info (!seq) (!z.transfer.pending.isEmpty) = _
      rw [fewer, not_isEmpty_eq]
    have card : (!z.sequence.card) = !x.sequence.card := by
      change (!y.sequence.card) = _
      rw [sequence]
    have idle' : bus.IsIdle := (approach.idle.hearing _).polled _
    have noisy' : Reply.Noisy o ((CardAction.acknowledge (!seq) left ++
        CardAction.chain (!z.sequence.card) (piece :: pieces)).map (CardAction.reply o)) bus.replies := by
      rw [replies, card]
      exact approach.noisy
    obtain ⟨earlier, last, delivery, parts', bit, content⟩ := ih (x := z) ⟨rfl, rfl, rfl⟩
      (ifs'.trans ifs) fewer more idle' noisy' (n - past.length - 1) (by rw [replies]; omega)
    rw [replies] at delivery
    have delivery := approach.delivery_of_going plainly next before delivery
    have rounds : past.length + ((n - past.length - 1) + 1) = n := by omega
    have block : [x.reference].filter (fun b => b.pcb.isInfo) = [x.reference] :=
      List.filter_cons_of_pos (by rw [sent]; rfl)
    have response' : z.transfer.response = x.transfer.response := response
    have room' : z.transfer.room = x.transfer.room := room
    rw [rounds, block, response', room', card, Sequence.bitAt_not] at delivery
    refine ⟨x.reference :: earlier, last, delivery, by rw [List.length_cons, parts'], ?_, ?_⟩
    · rw [bit, Sequence.bitAt_not]
    · rw [List.cons_append, List.flatMap_cons, content]
      exact congrArg (x.reference.inf ++ ·) rest'

end Exchange

/-! ## Whole exchanges -/

/-- What an honest card does: it acknowledges all parts of a payload but the last one, and then sends
    its response. -/
def CardAction.honest (s : Sequence) (payload data : Bytes) (chunk : Nat) : List CardAction :=
  acknowledge (!s.host) (max 1 ((payload.length + 253) / 254) - 1) ++ respond data chunk (!s.card)

theorem CardAction.fits_of_mem_acknowledge {n : Nat} {seq : Bool} {action : CardAction}
    (member : action ∈ acknowledge seq n) : action.Fits := by
  induction n generalizing seq with
  | zero => cases member
  | succ n ih =>
    rcases List.mem_cons.mp member with rfl | later
    · intro pcb inf content
      cases content
      exact Nat.zero_le _
    · exact ih later

theorem CardAction.fits_of_mem_chain {pieces : List Bytes} (fits : ∀ p ∈ pieces, p.length ≤ maxInf)
    {c : Bool} {action : CardAction} (member : action ∈ chain c pieces) : action.Fits := by
  induction pieces generalizing c with
  | nil => cases member
  | cons piece pieces ih =>
    have first : ∀ more, (CardAction.info c more piece).Fits := by
      intro more pcb inf content
      cases content
      exact fits piece List.mem_cons_self
    cases pieces with
    | nil =>
      rw [List.mem_singleton.mp member]
      exact first false
    | cons next pieces =>
      rcases List.mem_cons.mp member with rfl | later
      · exact first true
      · exact ih (fun p member => fits p (List.mem_cons_of_mem _ member)) later

theorem CardAction.length_chain (c : Bool) (pieces : List Bytes) :
    (chain c pieces).length = pieces.length := by
  induction pieces generalizing c with
  | nil => rfl
  | cons piece pieces ih =>
    cases pieces with
    | nil => rfl
    | cons next pieces =>
      rw [chain, List.length_cons, ih]
      rfl

theorem CardAction.getLast?_chain (pieces : List Bytes) (c : Bool) (piece : Bytes) :
    ∃ inf, (chain c (piece :: pieces)).getLast? =
      some (.info (Sequence.bitAt c pieces.length) false inf) := by
  induction pieces generalizing c piece with
  | nil => exact ⟨piece, rfl⟩
  | cons next pieces ih =>
    obtain ⟨inf, last⟩ := ih (!c) next
    refine ⟨inf, ?_⟩
    rw [chain, List.getLast?_cons, last, Option.getD_some, Sequence.bitAt_not, List.length_cons]

/-- The bits of the last information blocks of both sides. -/
def CardAction.finalBits (s : Sequence) (payload data : Bytes) (chunk : Nat) : Sequence where
  host := Sequence.bitAt (!s.host) (max 1 ((payload.length + 253) / 254) - 1)
  card := Sequence.bitAt (!s.card) ((respond data chunk (!s.card)).length - 1)

theorem CardAction.getLast?_respond (s : Sequence) (payload data : Bytes) {chunk : Nat}
    (pos : 1 ≤ chunk) : ∃ inf, (respond data chunk (!s.card)).getLast? =
      some (.info (finalBits s payload data chunk).card false inf) := by
  obtain ⟨piece, pieces, response, -⟩ := respond_eq data pos (!s.card)
  obtain ⟨inf, last⟩ := getLast?_chain pieces (!s.card) piece
  refine ⟨inf, ?_⟩
  rw [finalBits, response, last, length_chain]
  rfl

namespace Exchange

/-- An honest card is heard correctly over a noisy line. -/
theorem exists_delivery {o : Options} (plain : o.convention = none) (s : Sequence)
    (payload data buffer : Bytes) {chunk : Nat} (pos : 1 ≤ chunk) (fits : chunk ≤ maxInf)
    {script : List Reply}
    (noisy : Reply.Noisy o (Reply.scripted o (CardAction.honest s payload data chunk)) script) {n : Nat}
    (enough : script.length ≤ n) : ∃ earlier last,
      Delivery (data.take buffer.length) (CardAction.finalBits s payload data chunk)
        (earlier ++ [last]) script.length
        ((start .transceive s (.into payload buffer)).runFor o n (ScriptedCard.ofReplies script)) ∧
      earlier.length = max 1 ((payload.length + 253) / 254) - 1 ∧
      last.pcb = .info (CardAction.finalBits s payload data chunk).host false ∧
      (earlier ++ [last]).flatMap Block.inf = payload := by
  obtain ⟨piece, pieces, response, flatten, small⟩ := CardAction.respond_eq data pos (!s.card)
  have sized : ∀ p ∈ piece :: pieces, p.length ≤ maxInf := fun p member =>
    Nat.le_trans (small p member) fits
  have bits : CardAction.finalBits s payload data chunk =
      ⟨Sequence.bitAt (!s.host) (max 1 ((payload.length + 253) / 254) - 1),
        Sequence.bitAt (!s.card) pieces.length⟩ := by
    rw [CardAction.finalBits, response, CardAction.length_chain]
    rfl
  rw [CardAction.honest, response, Reply.scripted_eq] at noisy
  · let x := start .transceive s (.into payload buffer)
    have cut : (Transfer.into payload buffer).nextInf ++ x.transfer.pending = payload :=
      (Transfer.into payload buffer).nextInf_append_pending
    have left : max 1 ((payload.length + 253) / 254) - 1 = (x.transfer.pending.length + 253) / 254 := by
      have advanced : (x.transfer.pending.length + 253) / 254 = (payload.length + 253) / 254 - 1 :=
        parts_advanced (t := .into payload buffer) rfl
      omega
    have sent : x.reference.pcb =
        .info (!s.host) (decide (0 < max 1 ((payload.length + 253) / 254) - 1)) := by
      change Pcb.info (!s.host) (!x.transfer.pending.isEmpty) = _
      rw [left, not_isEmpty_eq]
    obtain ⟨earlier, last, delivery, parts, bit, content⟩ := delivery_of_payload plain sized _
      (x := x) ⟨rfl, rfl, rfl⟩ rfl left sent (ScriptedCard.isIdle_ofReplies script) noisy n enough
    rw [flatten] at delivery
    rw [bits]
    exact ⟨earlier, last, delivery, parts, bit, content.trans cut⟩
  · intro action member
    rcases List.mem_append.mp member with ack | info
    · exact CardAction.fits_of_mem_acknowledge ack
    · exact CardAction.fits_of_mem_chain sized info

end Exchange

namespace Host

/-- What is left of an exchange in which a payload was sent and a response received correctly: the host
    has received the response, the card has heard the payload, and both have played their parts. -/
structure Delivered (s : Sequence) (payload data buffer : Bytes) (chunk : Nat)
    (course : Course Host ScriptedCard) : Prop where
  ending : course.ending = .completed (data.take buffer.length)
  written : course.last.transfer.buffer.take (min data.length buffer.length) = data.take buffer.length
  -- The whole script was played
  replies : course.bus.replies = []
  -- Everything that was sent can be read
  readable : course.bus.heardFrames.length = course.bus.heard.length
  -- Each part of the payload was sent once
  parts : (course.bus.heardFrames.filter fun f => f.pcb.isInfo).length =
    max 1 ((payload.length + 253) / 254)
  payload : (course.bus.heardFrames.filter fun f => f.pcb.isInfo).flatMap Frame.inf = payload
  -- No new start was asked for
  steady : ∀ f ∈ course.bus.heardFrames, f.pcb ≠ .request .resync
  -- The bits are those of the last information blocks of both sides
  host : ∃ f, (course.bus.heardFrames.filter fun f => f.pcb.isInfo).getLast? = some f ∧
    f.pcb = .info course.last.sequence.host false
  card : ∃ inf, (CardAction.respond data chunk (!s.card)).getLast? =
    some (.info course.last.sequence.card false inf)

theorem delivered_of_delivery {o : Options} (plain : o.convention = none) {s : Sequence}
    {payload data buffer : Bytes} {chunk : Nat} (pos : 1 ≤ chunk) {script : List Reply}
    {course : Course Host ScriptedCard} {earlier : List Block} {last : Block}
    (delivery : Exchange.Delivery (data.take buffer.length) (CardAction.finalBits s payload data chunk)
      (earlier ++ [last]) script.length (course.map view))
    (played : Exchange.Played o (ScriptedCard.ofReplies script) (course.map view).rounds course.bus)
    (parts : earlier.length = max 1 ((payload.length + 253) / 254) - 1)
    (bit : last.pcb = .info (CardAction.finalBits s payload data chunk).host false)
    (content : (earlier ++ [last]).flatMap Block.inf = payload) :
    Delivered s payload data buffer chunk course := by
  have wire : course.bus.heard =
      ((course.map view).rounds.map fun r => r.before.outgoing).map o.wire := by
    rw [played.heard, List.map_map]
    rfl
  have heard := ScriptedCard.heardFrames_of_wire plain wire
  have blocks : (course.bus.heardFrames.filter fun f => f.pcb.isInfo).map Frame.block =
      earlier ++ [last] := by
    rw [← delivery.blocks, ← heard, List.filter_map]
    rfl
  have sequence : course.last.sequence = CardAction.finalBits s payload data chunk := delivery.sequence
  refine ⟨delivery.ending, ?_, ?_, ?_, ?_, ?_, ?_, ?_, ?_⟩
  · have written : course.last.transfer.response = data.take buffer.length := delivery.response
    have received := course.last.transfer.take_length_response
    rw [written, List.length_take, Nat.min_comm] at received
    exact received
  · rw [played.replies, delivery.rounds]
    exact List.drop_length
  · have frames := congrArg List.length heard
    rw [List.length_map, List.length_map] at frames
    rw [frames, played.heard, List.length_append, List.length_map]
    exact (Nat.zero_add _).symm
  · have length := congrArg List.length blocks
    rw [List.length_map, List.length_append, parts] at length
    rw [length]
    exact Nat.sub_add_cancel (Nat.le_max_left ..)
  · rw [← content, ← blocks, List.flatMap_map]
    rfl
  · intro f member resync
    have among := List.mem_map_of_mem (f := Frame.block) member
    rw [heard] at among
    obtain ⟨r, round, same⟩ := List.mem_map.mp among
    have pcb : r.before.outgoing.pcb = .request .resync := by rw [same]; exact resync
    rcases delivery.others r round with info | ⟨_, _, _, ready⟩
    · rw [pcb] at info
      cases info
    · rw [pcb] at ready
      cases ready
  · have final := congrArg List.getLast? blocks
    rw [List.getLast?_map, List.getLast?_concat, Option.map_eq_some_iff] at final
    obtain ⟨f, isLast, block⟩ := final
    refine ⟨f, isLast, ?_⟩
    rw [sequence, ← bit, ← block]
    rfl
  · rw [sequence]
    exact CardAction.getLast?_respond s payload data pos

/-- An honest card that sends a payload's acknowledgements and then its response is heard correctly
    although at most two noisy replies precede each of its own. The exchange ends as it does without
    noise. -/
theorem delivery_of_noisy {o : Options} (plain : o.convention = none) (s : Sequence)
    (payload data buffer : Bytes) {chunk : Nat} (pos : 1 ≤ chunk) (fits : chunk ≤ 254)
    {script : List Reply}
    (noisy : Reply.Noisy o (Reply.scripted o (CardAction.honest s payload data chunk)) script) :
    let course := (start .transceive s (.into payload buffer)).run o (ScriptedCard.ofReplies script)
    let clean := (start .transceive s (.into payload buffer)).run o
      (ScriptedCard.ofReplies (Reply.scripted o (CardAction.honest s payload data chunk)))
    Delivered s payload data buffer chunk course ∧ course.ending = clean.ending ∧
      course.last.sequence = clean.last.sequence := by
  have delivered {replies : List Reply}
      (noisy : Reply.Noisy o (Reply.scripted o (CardAction.honest s payload data chunk)) replies) :
      let course := (start .transceive s (.into payload buffer)).run o (ScriptedCard.ofReplies replies)
      Delivered s payload data buffer chunk course ∧
        course.last.sequence = CardAction.finalBits s payload data chunk := by
    intro course
    have refines := runFor_start .transceive s (.into payload buffer) o (replies.length + 8)
      (ScriptedCard.ofReplies replies)
    obtain ⟨earlier, last, delivery, parts, bit, content⟩ :=
      Exchange.exists_delivery plain s payload data buffer pos fits noisy (n := replies.length + 8)
        (Nat.le_add_right ..)
    have played := played_start (ScriptedCard.isIdle_ofReplies replies) .transceive s (.into payload buffer) o
      (replies.length + 8)
    rw [refines] at delivery
    exact ⟨delivered_of_delivery plain pos delivery played parts bit content, delivery.sequence⟩
  intro course clean
  obtain ⟨noisyDelivered, noisyBits⟩ := delivered noisy
  obtain ⟨cleanDelivered, cleanBits⟩ := delivered (Reply.Noisy.refl o _)
  exact ⟨noisyDelivered, noisyDelivered.ending.trans cleanDelivered.ending.symm,
    noisyBits.trans cleanBits.symm⟩

/-- A response in two blocks, of which the first is preceded by a silence and a damaged frame, and the
    second by a fault. -/
theorem delivery_of_noisy_pair :
    let script : List Reply := [.silence, .frame [0xA5, 0x20, 1, 7, 0],
      .frame [0xA5, 0x20, 1, 7, 0x83], .fault .bus, .frame [0xA5, 0x40, 1, 8, 0xEC]]
    let honest := Reply.scripted {} (CardAction.honest .fresh [1, 2] [7, 8] 1)
    let course := (start .transceive .fresh (.into [1, 2] [0, 0, 0])).run {} (ScriptedCard.ofReplies script)
    let clean := (start .transceive .fresh (.into [1, 2] [0, 0, 0])).run {} (ScriptedCard.ofReplies honest)
    ({} : Options).convention = none ∧ 1 ≤ 1 ∧ 1 ≤ 254 ∧ Reply.Noisy {} honest script ∧
      Delivered .fresh [1, 2] [7, 8] [0, 0, 0] 1 course ∧ course.ending = clean.ending ∧
      course.last.sequence = clean.last.sequence :=
  have damaged : Reply.IsNoise {} (.frame [0xA5, 0x20, 1, 7, 0]) := .damaged (by decide)
  have last : Reply.Noisy {} [.frame [0xA5, 0x40, 1, 8, 0xEC]]
      ([.fault .bus] ++ [.frame [0xA5, 0x40, 1, 8, 0xEC]]) :=
    .cons (by simp) (by simpa using .fault .bus) .nil
  have honest : Reply.scripted {} (CardAction.honest .fresh [1, 2] [7, 8] 1) =
      [.frame [0xA5, 0x20, 1, 7, 0x83], .frame [0xA5, 0x40, 1, 8, 0xEC]] := by decide +kernel
  have noisy : Reply.Noisy {} (Reply.scripted {} (CardAction.honest .fresh [1, 2] [7, 8] 1))
      ([.silence, .frame [0xA5, 0x20, 1, 7, 0]] ++ .frame [0xA5, 0x20, 1, 7, 0x83] ::
        ([.fault .bus] ++ [.frame [0xA5, 0x40, 1, 8, 0xEC]])) := by
    rw [honest]
    exact .cons (by simp) (by simpa using ⟨.silence, damaged⟩) last
  ⟨rfl, by decide, by decide, noisy,
    delivery_of_noisy rfl .fresh [1, 2] [7, 8] [0, 0, 0] (by decide) (by decide) noisy⟩

end Host

end CardLink
