import CardLink.Host.Buffers
import CardLink.Proofs.Buffering
import CardLink.Proofs.Rules

/-!
# What a verdict changes

A received frame is either accepted, and then a rule does all that it has to do, or it is refused, and
then nothing is changed but the count of errors. There is nothing in between (`isWhole_judge`), although
the sequence bits are moved before a rule is looked for, and a block that no rule allows is looked at a
second time as a refused one.

The rules change little of a transfer each. `Rule.filled_cases`, `Rule.ifs_cases` and `Rule.wait_cases`
say which block is prepared when they change something.
-/

namespace CardLink

/-! ## What rules change -/

namespace Transfer

variable {t t' : Transfer} {reference : Block} {seen : Sighting} {reaction : Reaction}

/-- Some bytes were added to the response, and no others were written. -/
structure Appends (t : Transfer) (fresh : Bytes) (t' : Transfer) : Prop where
  written : t'.written = t.written + fresh.length
  response : t'.response = t.response ++ fresh
  behind : t'.buffer.drop t'.written = t.buffer.drop t'.written
  capacity : t'.capacity = t.capacity

theorem appends_taking {b : Block} (info : b.pcb.isInfo = true) :
    t.Appends (b.inf.take t.room) (t.taking b) := by
  have written : (t.taking b).written = t.written + (b.inf.take t.room).length := by
    simp only [taking, info, if_true]
  refine ⟨written, response_taking info, ?_, (t.keeps_taking b).capacity⟩
  rw [written]
  simp only [taking, info, if_true]
  rcases Nat.le_total t.written t.buffer.length with within | beyond
  · have length : (t.buffer.take t.written ++ b.inf.take t.room).length =
        t.written + (b.inf.take t.room).length := by
      rw [List.length_append, List.length_take, Nat.min_eq_left within]
    rw [← length, List.drop_left]
  -- Without room, the buffer is written back as it was.
  · have full : t.room = 0 := Nat.sub_eq_zero_of_le beyond
    simp [full, List.take_of_length_le beyond, List.drop_eq_nil_of_le beyond]

theorem Rule.buffer_of_not_info {b : Block} (rule : t.Rule reference (.block b) reaction t')
    (other : b.pcb.isInfo = false) : t'.written = t.written ∧ t'.buffer = t.buffer := by
  cases rule with
  | last _ info => rw [info] at other; cases other
  | part _ info => rw [info] at other; cases other
  | _ => exact ⟨rfl, rfl⟩

/-- More of the payload is put into a block only if the card asks for the next part. -/
theorem Rule.filled_cases (rule : t.Rule reference seen reaction t') : t'.filled = t.filled ∨
    ∃ b seq, seen = .block b ∧ reference.pcb = .info seq true ∧ b.pcb = .ack !seq := by
  cases rule with
  | next sent ack => exact .inr ⟨_, _, rfl, sent, ack⟩
  | last => exact .inl (t.terms_taking _).1
  | part => exact .inl (t.terms_taking _).1
  | _ => exact .inl rfl

/-- The block size is changed only if the card is told that it gets the new one. -/
theorem Rule.ifs_cases (rule : t.Rule reference seen reaction t') : t'.ifs = t.ifs ∨
    reaction = .interject (.valued (.response .ifs) t'.ifs.val) := by
  cases rule with
  | resize => exact .inr rfl
  | last => exact .inl (t.terms_taking _).2.1
  | part => exact .inl (t.terms_taking _).2.1
  | _ => exact .inl rfl

/-- The next wait is stretched only if the card is told that it gets more time. -/
theorem Rule.wait_cases (rule : t.Rule reference seen reaction t') : t'.wait = t.wait ∨
    ∃ factor, reaction = .interject (.valued (.response .wtx) factor) ∧ t'.wait = .ofByte factor := by
  cases rule with
  | wait => exact .inr ⟨_, rfl, rfl⟩
  | last => exact .inl (t.terms_taking _).2.2
  | part => exact .inl (t.terms_taking _).2.2
  | _ => exact .inl rfl

/-- Whatever is done about a refused frame, the transfer is only changed by counting it. -/
theorem Recovers.exists_eq {fault : BlockFault} (recovers : t.Recovers reference fault reaction t') :
    ∃ complaint, t' = { t.refusing fault with complaint } := by
  cases recovers with
  | rule _ _ rule => cases rule <;> exact ⟨_, rfl⟩
  | _ => exact ⟨_, rfl⟩

end Transfer

/-! ## Verdicts -/

/-- The card asks for the next part of the payload, in a sound and empty block without complaints. -/
def Frame.AsksForNext (sent received : Frame) : Prop :=
  ∃ seq, sent.pcb = .info seq true ∧ received.pcb = .ack (!seq) ∧ received.isSound = true ∧
    received.len = 0

theorem Frame.AsksForNext.passed {sent received : Frame} (asks : AsksForNext sent received)
    (s : Sequence) : s.fault? received = none := by
  obtain ⟨seq, -, ack, sound, empty⟩ := asks
  exact Sequence.fault?_eq_none_iff.mpr
    ⟨isAbsent_of_ack ack, sound, by simp [Sequence.isWellFormed, ack, empty]⟩

theorem Reaction.block_prepare {reaction : Reaction} {b : Block} (sends : reaction.block? = some b)
    (f : Frame) : (reaction.prepare f).block = b := by
  rw [prepare, sends]
  exact f.block_prepared b

/-- What a verdict does to the transfer, to the bit of the card and to the buffer beside the reference:
    all of something, or nothing. -/
structure Verdict.IsWhole (t : Transfer) (s : Sequence) (sent received beside : Frame) (v : Verdict) :
    Prop where
  -- An accepted information block gives its bit and as much as there is room for. No other frame gives
  -- anything
  response :
    (∃ c more, received.pcb = .info c more ∧ received.isSound = true ∧ c ≠ s.card ∧
        t.refusal? s sent.block received = none ∧ v.sequence.card = c ∧
        v.transfer.written = t.written + min received.inf.length t.room ∧
        t.Appends (received.inf.take t.room) v.transfer) ∨
      (received.pcb.isInfo = false ∨ t.refusal? s sent.block received ≠ none) ∧
        v.sequence.card = s.card ∧ v.transfer.written = t.written ∧ v.transfer.buffer = t.buffer
  -- A frame that fails the check or that no rule allows is counted once, and no other is counted
  errors : v.transfer.errors =
    if t.refusal? s sent.block received = none then t.errors else t.errors + 1
  -- The card gets the next part of the payload if it asks for it, and only then
  filled :
    Frame.AsksForNext sent received ∧ (v.reaction.prepare beside).pcb.isInfo = true ∧
        v.transfer.filled = t.filled + (v.reaction.prepare beside).len.toNat ∨
      ¬ Frame.AsksForNext sent received ∧ v.transfer.filled = t.filled
  -- The card is told of what is granted to it
  ifs : v.transfer.ifs = t.ifs ∨
    (v.reaction.prepare beside).block = .valued (.response .ifs) v.transfer.ifs.val
  wait : v.transfer.wait = t.wait ∨ ∃ factor, v.transfer.wait = .ofByte factor ∧
    (v.reaction.prepare beside).block = .valued (.response .wtx) factor

namespace Verdict

variable {t t' : Transfer} {s : Sequence} {sent received : Frame} {reaction : Reaction}

/-- What is asked for is sent. -/
theorem filled_of_asksForNext (asks : Frame.AsksForNext sent received) (beside : Frame) :
    let v := judge t s sent.block received
    (v.reaction.prepare beside).pcb.isInfo = true ∧
      v.transfer.filled = t.filled + (v.reaction.prepare beside).len.toNat := by
  obtain ⟨seq, more, ack, -⟩ := id asks
  have rule : t.Rule sent.block (.block received.block) (.proceed (t.nextBlock !seq)) t.advanced :=
    .next more ack
  rw [judge_of_rule (asks.passed s) rule]
  change (beside.prepared (t.nextBlock !seq)).pcb.isInfo = true ∧
    t.filled + t.nextInf.length = t.filled + (beside.prepared (t.nextBlock !seq)).len.toNat
  rw [Frame.pcb_prepared, Frame.len_prepared, Frame.toNat_ofNat_length (Block.inf_length_le _)]
  exact ⟨rfl, rfl⟩

/-- A rule that accepts a block is applied as a whole. -/
theorem isWhole_of_rule (passed : s.fault? received = none)
    (rule : t.Rule sent.block (.block received.block) reaction t') (beside : Frame) :
    IsWhole t s sent received beside
      ⟨reaction, t', (s.answered sent.pcb).taken received.pcb⟩ := by
  have accepted : t.refusal? s sent.block received = none :=
    Transfer.refusal?_eq_none_iff.mpr ⟨passed, _, _, rule⟩
  obtain ⟨-, sound, wellFormed⟩ := Sequence.fault?_eq_none_iff.mp passed
  refine ⟨?_, ?_, ?_, ?_, ?_⟩
  · cases kind : received.pcb.isInfo with
    | false =>
      obtain ⟨written, buffer⟩ := rule.buffer_of_not_info kind
      refine .inr ⟨.inl rfl, ?_, written, buffer⟩
      rw [← s.card_answered sent.pcb]
      cases pcb : received.pcb with
      | info c more => rw [pcb] at kind; cases kind
      | ready => rfl
      | super => rfl
    | true =>
      obtain ⟨c, more, info⟩ : ∃ c more, received.pcb = .info c more := Pcb.isInfo_iff.mp kind
      obtain ⟨-, rfl, -⟩ := rule.of_info info
      have fresh : c ≠ s.card := by simpa [Sequence.isWellFormed, info] using wellFormed
      have appends : t.Appends (received.inf.take t.room) (t.taking received.block) :=
        Transfer.appends_taking (b := received.block) kind
      refine .inl ⟨c, more, info, sound, fresh, accepted, ?_, ?_, appends⟩
      · rw [info]
        rfl
      · rw [appends.written, List.length_take, Nat.min_comm]
  · rw [if_pos accepted]
    exact rule.keeps.errors
  · by_cases asks : Frame.AsksForNext sent received
    · have sends := filled_of_asksForNext (t := t) (s := s) asks beside
      rw [judge_of_rule passed rule] at sends
      exact .inl ⟨asks, sends⟩
    · refine .inr ⟨asks, rule.filled_cases.resolve_right ?_⟩
      rintro ⟨_, seq, same, more, ack⟩
      cases same
      have ack : received.pcb = .ack !seq := ack
      have empty : received.len = 0 := by simpa [Sequence.isWellFormed, ack] using wellFormed
      exact asks ⟨seq, more, ack, sound, empty⟩
  · exact rule.ifs_cases.imp_right fun sends => Reaction.block_prepare (by rw [sends]; rfl) beside
  · obtain same | ⟨factor, sends, wait⟩ := rule.wait_cases
    · exact .inl same
    · exact .inr ⟨factor, wait, Reaction.block_prepare (by rw [sends]; rfl) beside⟩

/-- Nothing is done for the sake of a refused frame. -/
theorem isWhole_of_recovers (few : t.errors < UInt32.size - 1) {fault : BlockFault}
    (refused : t.refusal? s sent.block received = some fault)
    (recovers : t.Recovers sent.block fault reaction t') (beside : Frame) :
    IsWhole t s sent received beside ⟨reaction, t', s.noticed sent.pcb received⟩ := by
  have refusal : t.refusal? s sent.block received ≠ none := by
    rw [refused]
    exact Option.some_ne_none _
  obtain ⟨complaint, rfl⟩ := recovers.exists_eq
  refine ⟨.inr ⟨.inr refusal, s.card_noticed .., rfl, rfl⟩, ?_, .inr ⟨?_, rfl⟩, .inl rfl, .inl rfl⟩
  · rw [if_neg refusal]
    change (t.errors + 1) % UInt32.size = t.errors + 1
    exact Nat.mod_eq_of_lt (by omega)
  · intro asks
    obtain ⟨seq, more, ack, -⟩ := id asks
    have rule : t.Rule sent.block (.block received.block) (.proceed (t.nextBlock !seq)) t.advanced :=
      .next more ack
    exact refusal (Transfer.refusal?_eq_none_iff.mpr ⟨asks.passed s, _, _, rule⟩)

/-- To judge a frame is to do all that an accepted block calls for, or nothing but to count a refused
    frame once. The next block is prepared in a buffer whose header was cleared. -/
theorem isWhole_judge (t : Transfer) (s : Sequence) (sent received beside : Frame)
    (few : t.errors < UInt32.size - 1) :
    IsWhole t s sent received beside.withoutHeader (judge t s sent.block received) := by
  have judged := judged_judge t s sent.block received
  generalize judge t s sent.block received = v at judged
  cases judged with
  | accepted passed rule => exact isWhole_of_rule passed rule _
  | refused refusal recovers => exact isWhole_of_recovers few refusal recovers _

/-- The block with the wrong bit in a chained response passes the check, is refused as the third frame in
    a row, and leaves no trace but that. -/
theorem isWhole_of_outOfPhase :
    let t := { Transfer.start [] 4 with written := 1, errors := 2 }
    let s : Sequence := .fresh
    let sent := (Block.plain (.ack true)).frame
    let received := ({ pcb := .info false true, inf := [7] } : Block).frame.checked
    t.errors < UInt32.size - 1 ∧ s.fault? received = none ∧
      (judge t s sent.block received).reaction = .proceed (.plain (.request .resync)) ∧
      IsWhole t s sent received Frame.absent.withoutHeader (judge t s sent.block received) :=
  ⟨by decide, by decide +kernel, by decide +kernel, isWhole_judge _ _ _ _ Frame.absent (by decide)⟩

end Verdict

end CardLink
