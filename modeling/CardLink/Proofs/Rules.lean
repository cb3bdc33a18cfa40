import CardLink.Exchange.Reaction

/-!
# The rules as a table

`Transfer.Rule` lists the rules of an exchange one by one: after this reference, this sighting calls for
this reaction, and does this to the transfer. `answer?_eq_some_iff` says that `Transfer.answer?` applies
exactly these rules. `Judged` lists how a verdict comes about: the received block is accepted by a rule,
or the frame is refused and a limit, a rule for refused frames or nothing is left.

Proofs about a round go by cases on these two, and do not open the functions again.
-/

namespace CardLink

/-! ## Rules -/

/-- References after which the card may send the part of its response with bit `c`. -/
inductive Pcb.AwaitsInfo : Pcb → Bool → Prop where
  | last {seq c} : AwaitsInfo (.info seq false) c
  | ack {c} : AwaitsInfo (.ack c) c

/-- References that are sent again when a frame was refused. -/
inductive Pcb.IsRepeated : Pcb → Prop where
  | ready {seq other parity} : IsRepeated (.ready seq other parity)
  | resync : IsRepeated (.request .resync)
  | ifs : IsRepeated (.request .ifs)
  | abort {response} : IsRepeated (.super .abort response)

/-- The rules for a transfer after a reference. -/
inductive Transfer.Rule (t : Transfer) (reference : Block) :
    Sighting → Reaction → Transfer → Prop where
  -- The last part of the response
  | last {b c} (awaits : reference.pcb.AwaitsInfo c) (info : b.pcb = .info c false) :
      Rule t reference (.block b) .complete (t.taking b)
  -- A part of the response that more follows
  | part {b c} (awaits : reference.pcb.AwaitsInfo c) (info : b.pcb = .info c true) :
      Rule t reference (.block b) (.proceed (.plain (.ack !c))) (t.taking b)
  -- The card asks for the next part of the payload
  | next {b seq} (sent : reference.pcb = .info seq true) (ack : b.pcb = .ack !seq) :
      Rule t reference (.block b) (.proceed (t.nextBlock !seq)) t.advanced
  -- The card asks for the block again
  | again {b seq more other parity} (sent : reference.pcb = .info seq more)
      (ready : b.pcb = .ready seq other parity) : Rule t reference (.block b) .retransmit t
  -- The card asks for a block after the last one
  | nudge {b seq other parity} (sent : reference.pcb = .info seq false)
      (ready : b.pcb = .ready (!seq) other parity) :
      Rule t reference (.block b) (.interject (.plain (.ack seq))) t
  -- The card asks for more time
  | wait {b seq} (sent : reference.pcb = .info seq false) (wtx : b.pcb = .request .wtx) :
      Rule t reference (.block b)
        (.interject (.valued (.response .wtx) (b.value?.getD 1)))
        { t with wait := .ofByte (b.value?.getD 1) }
  -- The card asks for another block size
  | resize {b ifs} (sent : reference.pcb.isInfo ∨ reference.pcb.isPlainAck)
      (request : b.pcb = .request .ifs) (size : b.value?.bind Ifs.ofByte? = some ifs) :
      Rule t reference (.block b) (.interject (.valued (.response .ifs) ifs.val)) { t with ifs }
  -- The card gives a chain up
  | yield {b} (sent : (∃ seq, reference.pcb = .info seq true) ∨
        ∃ seq other parity, reference.pcb = .ready seq other parity)
      (abort : b.pcb = .request .abort) :
      Rule t reference (.block b) (.proceed (.plain (.response .abort))) t
  -- Both sides start again
  | restart {b} (sent : reference.pcb = .request .resync) (resync : b.pcb = .response .resync) :
      Rule t reference (.block b) .resetSession t
  -- The card takes the announced block size
  | agreed {b} (sent : reference.pcb = .request .ifs) (ifs : b.pcb = .response .ifs)
      (same : b.value? = reference.value?) : Rule t reference (.block b) .complete t
  -- The card gives a chain up as it was asked to
  | aborted {b} (sent : reference.pcb = .request .abort) (abort : b.pcb = .response .abort) :
      Rule t reference (.block b) .complete t
  -- The card has given the exchange up
  | abandoned {b} (sent : reference.pcb = .response .abort) (ack : b.pcb.isPlainAck) :
      Rule t reference (.block b) .abort t
  -- A refused frame after a part of the payload is reported
  | report {fault seq more} (sent : reference.pcb = .info seq more) :
      Rule t reference (.refused fault) (.interject (.plain (fault.report seq))) t
  -- After a refused frame the reference is sent again
  | repeat {fault} (sent : reference.pcb.IsRepeated) :
      Rule t reference (.refused fault) .retransmit t

theorem Pcb.isPlainAck_iff {pcb : Pcb} : pcb.isPlainAck = true ↔ ∃ seq, pcb = .ack seq := by
  cases pcb with
  | ready seq other parity => cases other <;> cases parity <;> simp [isPlainAck]
  | info seq more => simp [isPlainAck]
  | super kind response => simp [isPlainAck]

theorem Pcb.isInfo_iff {pcb : Pcb} : pcb.isInfo = true ↔ ∃ seq more, pcb = .info seq more := by
  cases pcb with
  | info seq more => simp [isInfo]
  | ready seq other parity => simp [isInfo]
  | super kind response => simp [isInfo]

namespace Transfer

variable {t t' : Transfer} {reference : Block} {seen : Sighting} {reaction : Reaction}

theorem rule_of_afterLast {seq : Bool} (sent : reference.pcb = .info seq false)
    (answer : t.afterLast seq seen = some (reaction, t')) : t.Rule reference seen reaction t' := by
  cases seen with
  | refused fault =>
    simp only [afterLast] at answer
    cases answer
    exact .report sent
  | block b =>
    have awaits (c : Bool) : reference.pcb.AwaitsInfo c := by rw [sent]; exact .last
    simp only [afterLast] at answer
    split at answer
    next c more info =>
      cases more <;> cases answer
      · exact .last (awaits c) info
      · exact .part (awaits c) info
    next wanted other parity ready =>
      cases answer
      by_cases same : wanted = seq
      · rw [if_pos same]
        exact .again sent (same ▸ ready)
      · rw [if_neg same]
        exact .nudge sent (by rw [ready, Bool.eq_not_of_ne same])
    next wtx =>
      cases answer
      exact .wait sent wtx
    next request =>
      simp only [resized, Option.map_eq_some_iff] at answer
      obtain ⟨ifs, size, rfl, rfl⟩ := answer
      exact .resize (.inl (by rw [sent]; rfl)) request size
    next => cases answer

theorem rule_of_afterPart {seq : Bool} (sent : reference.pcb = .info seq true)
    (answer : t.afterPart seq seen = some (reaction, t')) : t.Rule reference seen reaction t' := by
  cases seen with
  | refused fault =>
    simp only [afterPart] at answer
    cases answer
    exact .report sent
  | block b =>
    simp only [afterPart] at answer
    split at answer
    next wanted other parity ready =>
      by_cases same : wanted = seq
      · rw [if_pos same] at answer
        cases answer
        exact .again sent (same ▸ ready)
      · rw [if_neg same] at answer
        by_cases plain : b.pcb.isPlainAck = true
        · rw [if_pos plain] at answer
          cases answer
          obtain ⟨_, ack⟩ := Pcb.isPlainAck_iff.mp plain
          rw [ready] at ack
          cases ack
          have toggled : wanted = !seq := Bool.eq_not_of_ne same
          subst toggled
          exact .next sent ready
        · rw [if_neg plain] at answer
          cases answer
    next request =>
      simp only [resized, Option.map_eq_some_iff] at answer
      obtain ⟨ifs, size, rfl, rfl⟩ := answer
      exact .resize (.inl (by rw [sent]; rfl)) request size
    next abort =>
      cases answer
      exact .yield (.inl ⟨seq, sent⟩) abort
    next => cases answer

theorem rule_of_afterAck {wanted : Bool} (sent : reference.pcb = .ack wanted)
    (answer : t.afterAck wanted seen = some (reaction, t')) : t.Rule reference seen reaction t' := by
  cases seen with
  | refused fault =>
    simp only [afterAck] at answer
    cases answer
    exact .repeat (by rw [sent]; exact .ready)
  | block b =>
    simp only [afterAck] at answer
    split at answer
    next c more info =>
      by_cases same : c = wanted
      · have awaits : reference.pcb.AwaitsInfo c := by rw [sent, same]; exact .ack
        rw [if_pos same] at answer
        cases more <;> cases answer
        · exact .last awaits info
        · exact .part awaits info
      · rw [if_neg same] at answer
        cases answer
    next request =>
      simp only [resized, Option.map_eq_some_iff] at answer
      obtain ⟨ifs, size, rfl, rfl⟩ := answer
      exact .resize (.inr (by rw [sent]; rfl)) request size
    next abort =>
      cases answer
      exact .yield (.inr ⟨_, _, _, sent⟩) abort
    next => cases answer

theorem rule_of_afterReport {seq other parity : Bool} (sent : reference.pcb = .ready seq other parity)
    (answer : t.afterReport seen = some (reaction, t')) : t.Rule reference seen reaction t' := by
  cases seen with
  | refused fault =>
    simp only [afterReport] at answer
    cases answer
    exact .repeat (by rw [sent]; exact .ready)
  | block b =>
    simp only [afterReport] at answer
    by_cases abort : b.pcb = .request .abort
    · rw [if_pos abort] at answer
      cases answer
      exact .yield (.inr ⟨_, _, _, sent⟩) abort
    · rw [if_neg abort] at answer
      cases answer

theorem rule_of_afterSuper (answer : t.afterSuper reference seen = some (reaction, t')) :
    t.Rule reference seen reaction t' := by
  cases seen with
  | refused fault =>
    simp only [afterSuper] at answer
    split at answer
    next sent => cases answer; exact .repeat (by rw [sent]; exact .resync)
    next sent => cases answer; exact .repeat (by rw [sent]; exact .ifs)
    next sent => cases answer; exact .repeat (by rw [sent]; exact .abort)
    next => cases answer
  | block b =>
    simp only [afterSuper] at answer
    split at answer
    next sent resync => cases answer; exact .restart sent resync
    next sent ifs =>
      by_cases same : b.value? = reference.value?
      · rw [if_pos same] at answer
        cases answer
        exact .agreed sent ifs same
      · rw [if_neg same] at answer
        cases answer
    next sent abort => cases answer; exact .aborted sent abort
    next sent =>
      by_cases plain : b.pcb.isPlainAck = true
      · rw [if_pos plain] at answer
        cases answer
        exact .abandoned sent plain
      · rw [if_neg plain] at answer
        cases answer
    next => cases answer

theorem rule_of_answer? (answer : t.answer? reference seen = some (reaction, t')) :
    t.Rule reference seen reaction t' := by
  unfold answer? at answer
  split at answer
  next seq sent => exact rule_of_afterLast sent answer
  next seq sent => exact rule_of_afterPart sent answer
  next wanted sent => exact rule_of_afterAck sent answer
  next seq other parity _ sent => exact rule_of_afterReport sent answer
  next => exact rule_of_afterSuper answer

theorem answer?_of_rule (rule : t.Rule reference seen reaction t') :
    t.answer? reference seen = some (reaction, t') := by
  cases rule with
  | last awaits info =>
    generalize sent : reference.pcb = pcb at awaits
    cases awaits <;> simp [answer?, sent, afterLast, afterAck, info, receiving]
  | part awaits info =>
    generalize sent : reference.pcb = pcb at awaits
    cases awaits <;> simp [answer?, sent, afterLast, afterAck, info, receiving]
  | next sent ack => simp [answer?, sent, afterPart, ack, Pcb.isPlainAck]
  | @again _ _ more _ _ sent ready =>
    cases more <;> simp [answer?, sent, afterLast, afterPart, ready]
  | nudge sent ready => simp [answer?, sent, afterLast, ready]
  | wait sent wtx => simp [answer?, sent, afterLast, wtx]
  | resize sent request size =>
    rcases sent with info | ack
    · generalize sent : reference.pcb = pcb at info
      cases pcb with
      | info seq more =>
        cases more <;> simp [answer?, sent, afterLast, afterPart, request, resized, size]
      | ready _ _ _ => cases info
      | super _ _ => cases info
    · obtain ⟨seq, sent⟩ := Pcb.isPlainAck_iff.mp ack
      simp [answer?, sent, afterAck, request, resized, size]
  | yield sent abort =>
    rcases sent with ⟨seq, sent⟩ | ⟨seq, other, parity, sent⟩
    · simp [answer?, sent, afterPart, abort]
    · cases other <;> cases parity <;> simp [answer?, sent, afterAck, afterReport, abort]
  | restart sent resync => simp [answer?, sent, afterSuper, resync]
  | agreed sent ifs same => simp [answer?, sent, afterSuper, ifs, same]
  | aborted sent abort => simp [answer?, sent, afterSuper, abort]
  | abandoned sent ack => simp [answer?, sent, afterSuper, ack]
  | @report _ _ more sent => cases more <;> simp [answer?, sent, afterLast, afterPart]
  | «repeat» repeated =>
    generalize sent : reference.pcb = pcb at repeated
    cases repeated with
    | @ready _ other parity =>
      cases other <;> cases parity <;> simp [answer?, sent, afterAck, afterReport]
    | resync => simp [answer?, sent, afterSuper]
    | ifs => simp [answer?, sent, afterSuper]
    | abort => simp [answer?, sent, afterSuper]

/-- The rules are exactly those of the table. -/
theorem answer?_eq_some_iff :
    t.answer? reference seen = some (reaction, t') ↔ t.Rule reference seen reaction t' :=
  ⟨rule_of_answer?, answer?_of_rule⟩

/-- After the request for a new start, no block is accepted but the answer to it. -/
theorem Rule.reaction_of_resync {b : Block} (rule : t.Rule reference (.block b) reaction t')
    (asked : reference.pcb = .request .resync) : reaction = .resetSession := by
  cases rule with
  | restart => rfl
  | last awaits => rw [asked] at awaits; cases awaits
  | part awaits => rw [asked] at awaits; cases awaits
  | _ => simp_all [Pcb.isInfo, Pcb.isPlainAck]

/-- A frame that is refused after a part of the payload is reported. -/
theorem Rule.reaction_of_info {fault : BlockFault} (rule : t.Rule reference (.refused fault) reaction t')
    {seq more : Bool} (sent : reference.pcb = .info seq more) :
    reaction = .interject (.plain (fault.report seq)) := by
  cases rule with
  | report sent' =>
    rw [sent] at sent'
    cases sent'
    rfl
  | «repeat» repeated =>
    rw [sent] at repeated
    cases repeated

/-- An information block is part of the response, and the last part completes the exchange. -/
theorem Rule.of_info {b : Block} {c more : Bool} (rule : t.Rule reference (.block b) reaction t')
    (info : b.pcb = .info c more) : reference.pcb.AwaitsInfo c ∧ t' = t.taking b ∧
      reaction = if more then .proceed (.plain (.ack !c)) else .complete := by
  cases rule with
  | last awaits last =>
    rw [info] at last
    cases last
    exact ⟨awaits, rfl, rfl⟩
  | part awaits part =>
    rw [info] at part
    cases part
    exact ⟨awaits, rfl, rfl⟩
  | abandoned _ ack =>
    rw [info] at ack
    cases ack
  | _ => simp_all

/-- Any other block leaves the response as it is, and none of them completes the sending of a
    payload. -/
theorem Rule.of_not_info {b : Block} (rule : t.Rule reference (.block b) reaction t')
    (other : b.pcb.isInfo = false) : t'.response = t.response ∧ (reaction = .complete →
      reference.pcb = .request .ifs ∨ reference.pcb = .request .abort) := by
  cases rule with
  | last _ info => rw [info] at other; cases other
  | part _ info => rw [info] at other; cases other
  | agreed sent => exact ⟨rfl, fun _ => .inl sent⟩
  | aborted sent => exact ⟨rfl, fun _ => .inr sent⟩
  | _ => exact ⟨rfl, nofun⟩

/-- A rule leaves the counters, the payload and the room for the response as they are. -/
structure Keeps (t t' : Transfer) : Prop where
  errors : t'.errors = t.errors
  resends : t'.resends = t.resends
  payload : t'.payload = t.payload
  capacity : t'.capacity = t.capacity

theorem keeps_taking (t : Transfer) (b : Block) : t.Keeps (t.taking b) := by
  obtain ⟨buffer, written, taking, length⟩ := t.taking_eq b
  rw [taking]
  exact ⟨rfl, rfl, rfl, length⟩

/-- Taking some of the response changes nothing that was agreed on, and sends nothing. -/
theorem terms_taking (t : Transfer) (b : Block) : (t.taking b).filled = t.filled ∧
    (t.taking b).ifs = t.ifs ∧ (t.taking b).wait = t.wait := by
  obtain ⟨_, _, taking, -⟩ := t.taking_eq b
  rw [taking]
  exact ⟨rfl, rfl, rfl⟩

theorem Rule.keeps (rule : t.Rule reference seen reaction t') : t.Keeps t' := by
  cases rule with
  | last => exact t.keeps_taking _
  | part => exact t.keeps_taking _
  | _ => exact ⟨rfl, rfl, rfl, rfl⟩

end Transfer

/-! ## Received blocks -/

theorem Block.eq_iff {b b' : Block} : b = b' ↔ b.pcb = b'.pcb ∧ b.inf = b'.inf := by
  cases b
  cases b'
  simp

namespace Frame

variable {f : Frame} {pcb : Pcb} {value : UInt8}

/-- The byte that marks a missing block reads as a response about time, and as nothing else. -/
theorem isAbsent_of_pcb_ne (other : f.pcb ≠ .response .wtx) : f.isAbsent = false := by
  refine Bool.eq_false_iff.mpr fun absent => other ?_
  rw [Frame.pcb, eq_of_beq absent]
  rfl

theorem isAbsent_of_ack {seq : Bool} (ack : f.pcb = .ack seq) : f.isAbsent = false :=
  isAbsent_of_pcb_ne (by rw [ack]; exact Pcb.noConfusion)

theorem len_eq_iff {n : Nat} (few : n < maxInf) : f.len.toNat = n ↔ f.inf.length = n := by
  rw [f.length_inf, infLength]
  omega

theorem block_eq_plain_iff : f.block = .plain pcb ↔ f.pcb = pcb ∧ f.len = 0 := by
  have empty : f.len = 0 ↔ f.inf = [] := by
    rw [← List.length_eq_zero_iff, ← len_eq_iff (by decide), ← UInt8.toNat_inj]
    rfl
  rw [empty, Block.eq_iff]
  rfl

theorem block_eq_valued_iff :
    f.block = .valued pcb value ↔ f.pcb = pcb ∧ f.len = 1 ∧ f.block.value? = some value := by
  have single : f.inf = [value] ↔ f.len = 1 ∧ f.inf.head? = some value := by
    rw [← UInt8.toNat_inj, show (1 : UInt8).toNat = 1 from rfl, len_eq_iff (by decide)]
    cases f.inf <;> simp [and_comm]
  rw [Block.eq_iff]
  exact and_congr_right' single

end Frame

theorem Ifs.ofByte?_val (ifs : Ifs) : ofByte? ifs.val = some ifs := dif_pos ⟨ifs.pos, ifs.le_maxInf⟩

theorem Ifs.val_of_ofByte? {byte : UInt8} {ifs : Ifs} (size : ofByte? byte = some ifs) :
    byte = ifs.val := by
  unfold ofByte? at size
  split at size
  · cases size
    rfl
  · cases size

/-! ## Sequence bits -/

namespace Sequence

/-- The bits of a chain, which alternate from the first one on. -/
def bitAt (first : Bool) : Nat → Bool
  | 0 => first
  | n + 1 => !bitAt first n

theorem bitAt_not (first : Bool) (n : Nat) : bitAt (!first) n = bitAt first (n + 1) := by
  induction n with
  | zero => rfl
  | succ n ih => rw [bitAt, ih]; rfl

/-- The bits once it is known whether the last block of the host arrived: any sound frame shows that it
    did. -/
def noticed (s : Sequence) (sent : Pcb) (received : Frame) : Sequence :=
  if received.isAbsent || !received.isSound then s else s.answered sent

@[simp] theorem card_answered (s : Sequence) (sent : Pcb) : (s.answered sent).card = s.card := by
  cases sent <;> rfl

@[simp] theorem card_noticed (s : Sequence) (sent : Pcb) (received : Frame) :
    (s.noticed sent received).card = s.card := by
  unfold noticed
  split
  · rfl
  · exact s.card_answered sent

variable {s : Sequence} {received : Frame}

theorem fault?_eq_none_iff : s.fault? received = none ↔
    received.isAbsent = false ∧ received.isSound = true ∧ s.isWellFormed received = true := by
  unfold fault?
  cases received.isAbsent <;> cases received.isSound <;> cases s.isWellFormed received <;> simp

/-- A supervisory block that passes the check carries a value if its kind asks for one. -/
theorem exists_value_of_passed {kind : Supervisory} {response : Bool}
    (passed : s.fault? received = none) (pcb : received.pcb = .super kind response)
    (valued : kind.hasValue = true) : ∃ value, received.block = .valued (.super kind response) value := by
  obtain ⟨-, -, wellFormed⟩ := fault?_eq_none_iff.mp passed
  simp only [isWellFormed, pcb, valued, if_true, Bool.and_eq_true, beq_iff_eq] at wellFormed
  obtain ⟨len, -⟩ := wellFormed
  obtain ⟨value, inf⟩ := List.length_eq_one_iff.mp ((Frame.len_eq_iff (by decide)).mp
    (congrArg UInt8.toNat len))
  refine ⟨value, Frame.block_eq_valued_iff.mpr ⟨pcb, len, ?_⟩⟩
  change received.inf.head? = _
  rw [inf]
  rfl

theorem after_of_passed (sent : Pcb) (passed : s.fault? received = none) :
    s.after sent received = (s.answered sent).taken received.pcb := by
  obtain ⟨present, sound, wellFormed⟩ := fault?_eq_none_iff.mp passed
  simp [after, present, sound, wellFormed]

theorem after_of_failed (sent : Pcb) {fault : BlockFault} (failed : s.fault? received = some fault) :
    s.after sent received = s.noticed sent received := by
  unfold after noticed
  -- A frame that fails the check was not received, is not sound, or makes no sense.
  by_cases silent : (received.isAbsent || !received.isSound) = true
  · rw [if_pos silent, if_pos silent]
  · rw [if_neg silent, if_neg silent]
    cases wellFormed : s.isWellFormed received with
    | false => rw [if_neg Bool.false_ne_true]
    | true =>
      simp only [Bool.or_eq_true, Bool.not_eq_true', not_or, Bool.not_eq_true, Bool.not_eq_false]
        at silent
      rw [fault?_eq_none_iff.mpr ⟨silent.1, silent.2, wellFormed⟩] at failed
      cases failed

theorem after_restored (sent : Pcb) (passed : s.fault? received = none) :
    { s.after sent received with card := s.card } = s.noticed sent received := by
  obtain ⟨present, sound, -⟩ := fault?_eq_none_iff.mp passed
  rw [after_of_passed sent passed]
  cases sent <;> cases pcb : received.pcb <;> simp [noticed, present, sound, answered, taken]

end Sequence

/-! ## Verdicts -/

/-- Why a frame is refused after a reference, if it is: it fails the check, or no rule allows its
    block. -/
def Transfer.refusal? (t : Transfer) (s : Sequence) (reference : Block) (received : Frame) :
    Option BlockFault :=
  match s.fault? received with
  | some fault => some fault
  | none => if (t.answer? reference (.block received.block)).isSome then none else some .other

theorem Transfer.refusal?_eq_none_iff {t : Transfer} {s : Sequence} {reference : Block}
    {received : Frame} : t.refusal? s reference received = none ↔ s.fault? received = none ∧
      ∃ reaction t', t.Rule reference (.block received.block) reaction t' := by
  unfold refusal?
  cases s.fault? received with
  | some fault => simp
  | none => simp [Option.isSome_iff_exists, answer?_eq_some_iff]

/-- What is done about a refused frame. -/
inductive Transfer.Recovers (t : Transfer) (reference : Block) (fault : BlockFault) :
    Reaction → Transfer → Prop where
  -- So many frames were refused that the card is reset
  | reset (many : resetLimit ≤ (t.refusing fault).errors) :
      Recovers t reference fault .resetDevice (t.refusing fault)
  -- So many frames were refused that a new start is asked for
  | resync (many : resyncLimit ≤ (t.refusing fault).errors)
      (sent : reference.pcb ≠ .request .resync) :
      Recovers t reference fault (.proceed (.plain (.request .resync))) (t.refusing fault)
  -- There is a rule for refused frames after the reference
  | rule {reaction t'} (few : (t.refusing fault).errors < resetLimit)
      (fewer : reference.pcb ≠ .request .resync → (t.refusing fault).errors < resyncLimit)
      (rule : (t.refusing fault).Rule reference (.refused fault) reaction t') :
      Recovers t reference fault reaction t'
  -- There is nothing to be done
  | stuck (few : (t.refusing fault).errors < resetLimit)
      (noRule : (t.refusing fault).answer? reference (.refused fault) = none) :
      Recovers t reference fault .hardFail
        { t.refusing fault with complaint := some (.noRule reference.pcb) }

theorem Transfer.recovers_refuse (t : Transfer) (reference : Block) (fault : BlockFault) :
    t.Recovers reference fault (t.refuse reference fault).1 (t.refuse reference fault).2 := by
  unfold refuse
  by_cases many : resetLimit ≤ (t.refusing fault).errors
  · simp only [if_pos many]
    exact .reset many
  · simp only [if_neg many]
    by_cases resync : resyncLimit ≤ (t.refusing fault).errors ∧ reference.pcb ≠ .request .resync
    · simp only [if_pos resync]
      exact .resync resync.1 resync.2
    · simp only [if_neg resync]
      have few := Nat.lt_of_not_le many
      cases answer : (t.refusing fault).answer? reference (.refused fault) with
      | none => exact .stuck few answer
      | some outcome =>
        refine .rule few (fun sent => ?_) (rule_of_answer? answer)
        exact Nat.lt_of_not_le fun enough => resync ⟨enough, sent⟩

/-- How a verdict on a received frame comes about. -/
inductive Judged (t : Transfer) (s : Sequence) (reference : Block) (received : Frame) :
    Verdict → Prop where
  -- The frame passed the check, and a rule accepts its block
  | accepted {reaction t'} (passed : s.fault? received = none)
      (rule : t.Rule reference (.block received.block) reaction t') :
      Judged t s reference received
        ⟨reaction, t', (s.answered reference.pcb).taken received.pcb⟩
  -- The frame was refused, and is recovered from
  | refused {fault reaction t'} (refusal : t.refusal? s reference received = some fault)
      (recovers : t.Recovers reference fault reaction t') :
      Judged t s reference received ⟨reaction, t', s.noticed reference.pcb received⟩

/-- All that counts of a refused frame is its fault, and whether it shows that the host's last block
    arrived. -/
theorem judge_of_refusal {t : Transfer} {s : Sequence} {reference : Block} {received : Frame}
    {fault : BlockFault} (refused : t.refusal? s reference received = some fault) :
    judge t s reference received = ⟨(t.refuse reference fault).1, (t.refuse reference fault).2,
      s.noticed reference.pcb received⟩ := by
  unfold judge
  unfold Transfer.refusal? at refused
  cases checked : s.fault? received with
  | some fault =>
    simp only [checked, Option.some.injEq] at refused
    simp only [Sequence.after_of_failed _ checked, refused]
  | none =>
    simp only [checked] at refused
    cases answer : t.answer? reference (.block received.block) with
    | some outcome => simp [answer] at refused
    | none =>
      simp only [answer, Option.isSome_none, Bool.false_eq_true, if_false, Option.some.injEq] at refused
      simp only [Sequence.after_restored _ checked, refused]

theorem judged_judge (t : Transfer) (s : Sequence) (reference : Block) (received : Frame) :
    Judged t s reference received (judge t s reference received) := by
  cases refusal : t.refusal? s reference received with
  | some fault =>
    rw [judge_of_refusal refusal]
    exact .refused refusal (t.recovers_refuse ..)
  | none =>
    obtain ⟨passed, reaction, t', rule⟩ := Transfer.refusal?_eq_none_iff.mp refusal
    unfold judge
    simp only [passed, Transfer.answer?_of_rule rule, Sequence.after_of_passed _ passed]
    exact .accepted passed rule

/-- A rule for the block of a frame that passes the check decides the verdict. -/
theorem Judged.eq_of_rule {t t' : Transfer} {s : Sequence} {reference : Block} {received : Frame}
    {v : Verdict} {reaction : Reaction} (judged : Judged t s reference received v)
    (passed : s.fault? received = none)
    (rule : t.Rule reference (.block received.block) reaction t') :
    v = ⟨reaction, t', (s.answered reference.pcb).taken received.pcb⟩ := by
  cases judged with
  | accepted _ rule' =>
    have same := Transfer.answer?_of_rule rule'
    rw [Transfer.answer?_of_rule rule] at same
    cases same
    rfl
  | refused refusal =>
    rw [Transfer.refusal?_eq_none_iff.mpr ⟨passed, _, _, rule⟩] at refusal
    cases refusal

theorem judge_of_rule {t t' : Transfer} {s : Sequence} {reference : Block} {received : Frame}
    {reaction : Reaction} (passed : s.fault? received = none)
    (rule : t.Rule reference (.block received.block) reaction t') : judge t s reference received =
      ⟨reaction, t', (s.answered reference.pcb).taken received.pcb⟩ :=
  (judged_judge ..).eq_of_rule passed rule

theorem Judged.keeps {t : Transfer} {s : Sequence} {reference : Block} {received : Frame} {v : Verdict}
    (judged : Judged t s reference received v) :
    v.transfer.payload = t.payload ∧ v.transfer.capacity = t.capacity := by
  cases judged with
  | accepted _ rule => exact ⟨rule.keeps.payload, rule.keeps.capacity⟩
  | refused _ recovers =>
    cases recovers with
    | rule _ _ rule => exact ⟨rule.keeps.payload, rule.keeps.capacity⟩
    | _ => exact ⟨rfl, rfl⟩

end CardLink
