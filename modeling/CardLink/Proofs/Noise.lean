import CardLink.Proofs.Rounds
import CardLink.Proofs.Wire

/-!
# Noise

Replies that give the host nothing to act on: silence, faults, and frames that are for somebody else,
too short, of reserved length or damaged. After a part of the payload the host reports them, and after
an acknowledgement it sends that again; in both cases it is where it was before, and waits for the same
block (`reaches_of_noise`). This goes on as long as its counters allow, which is twice.
-/

namespace CardLink

/-! ## Replies that are noise -/

/-- Replies that give the host nothing to act on. -/
inductive Reply.IsNoise (o : Options) : Reply → Prop where
  | silence : IsNoise o .silence
  | fault (f : CardFault) : IsNoise o (.fault f)
  | readFault (f : CardFault) : IsNoise o (.readFault f)
  -- A frame for somebody else
  | elsewhere {address bytes} (foreign : address ≠ o.host) : IsNoise o (.frame (address :: bytes))
  -- Not even a whole header
  | short {bytes} (few : bytes.length < 3) : IsNoise o (.frame bytes)
  -- Fewer bytes than LEN asks for, or no check behind them
  | truncated {address pcbByte len rest} (few : rest.length ≤ len.toNat) :
      IsNoise o (.frame (address :: pcbByte :: len :: rest))
  | reserved {address pcbByte rest} : IsNoise o (.frame (address :: pcbByte :: 255 :: rest))
  -- A check that does not fit
  | damaged {address pcbByte len rest}
      (wrong : Bytes.check (address :: pcbByte :: len :: rest.take (len.toNat + 1)) ≠ 0) :
      IsNoise o (.frame (address :: pcbByte :: len :: rest))

/-- A script in which at most two noisy replies precede each honest one. -/
inductive Reply.Noisy (o : Options) : List Reply → List Reply → Prop where
  | nil : Noisy o [] []
  | cons {noise reply honest script} (few : noise.length ≤ 2) (noisy : ∀ n ∈ noise, IsNoise o n)
      (rest : Noisy o honest script) : Noisy o (reply :: honest) (noise ++ reply :: script)

theorem Reply.Noisy.refl (o : Options) (honest : List Reply) : Noisy o honest honest := by
  induction honest with
  | nil => exact .nil
  | cons reply honest ih =>
    have few : ([] : List Reply).length ≤ 2 := Nat.zero_le 2
    exact .cons few nofun ih

/-- No frame was received, or one that can not be trusted. -/
def Frame.IsLost (f : Frame) : Prop := f.isAbsent = true ∨ f.isSound = false

theorem Frame.isLost_absent : absent.IsLost := .inl rfl

namespace Reply

variable {o : Options} {reply : Reply}

theorem heard_of_unreadable {address pcbByte len : UInt8} {rest : Bytes}
    (unreadable : ¬(address = o.host ∧ len ≠ 255 ∧ len.toNat < rest.length)) :
    heard o (.frame (address :: pcbByte :: len :: rest)) = .absent := if_neg unreadable

theorem isLost_of_damaged (plain : o.convention = none) {pcbByte len : UInt8} {rest : Bytes}
    (notReserved : len ≠ 255) (enough : len.toNat < rest.length)
    (wrong : Bytes.check (o.host :: pcbByte :: len :: rest.take (len.toNat + 1)) ≠ 0) :
    (heard o (.frame (o.host :: pcbByte :: len :: rest))).IsLost := by
  have inRange : len.toNat ≤ maxInf := Frame.toNat_le_maxInf_iff.mpr notReserved
  have length : (rest.take (len.toNat + 1)).length = len.toNat + 1 := List.length_take_of_le enough
  have received : heard o (.frame (o.host :: pcbByte :: len :: rest)) =
      Frame.absent.received o.host pcbByte len (rest.take (len.toNat + 1)) := by
    rw [heard, if_pos ⟨rfl, notReserved, enough⟩]
    simp only [Options.underConvention, plain]
    rfl
  refine .inr (Bool.eq_false_iff.mpr fun sound => wrong ?_)
  rw [received, Frame.isSound_iff, Frame.bytes_received _ _ _ inRange length] at sound
  exact sound.2

theorem isLost_of_isNoise (plain : o.convention = none) (noise : IsNoise o reply) :
    (heard o reply).IsLost := by
  cases noise with
  | silence => exact Frame.isLost_absent
  | fault => exact Frame.isLost_absent
  | readFault => exact Frame.isLost_absent
  | elsewhere foreign =>
    rw [heard_of_foreign foreign]
    exact Frame.isLost_absent
  | @short bytes few =>
    match bytes with
    | [] | [_] | [_, _] => exact Frame.isLost_absent
    | _ :: _ :: _ :: _ => exact absurd few (by simp)
  | truncated few =>
    rw [heard_of_unreadable fun readable => Nat.not_lt_of_le few readable.2.2]
    exact Frame.isLost_absent
  | reserved =>
    rw [heard_of_unreadable fun readable => readable.2.1 rfl]
    exact Frame.isLost_absent
  | @damaged address pcbByte len rest wrong =>
    by_cases readable : address = o.host ∧ len ≠ 255 ∧ len.toNat < rest.length
    · obtain ⟨rfl, notReserved, enough⟩ := readable
      exact isLost_of_damaged plain notReserved enough wrong
    · rw [heard_of_unreadable readable]
      exact Frame.isLost_absent

end Reply

/-! ## Refused frames leave no trace -/

theorem Sequence.fault?_of_isLost (s : Sequence) {received : Frame} (lost : received.IsLost) :
    ∃ fault, s.fault? received = some fault := by
  cases checked : s.fault? received with
  | some fault => exact ⟨fault, rfl⟩
  | none =>
    obtain ⟨present, sound, -⟩ := fault?_eq_none_iff.mp checked
    rcases lost with absent | unsound
    · rw [present] at absent
      cases absent
    · rw [sound] at unsound
      cases unsound

theorem Sequence.noticed_of_isLost (s : Sequence) (sent : Pcb) {received : Frame}
    (lost : received.IsLost) : s.noticed sent received = s := by
  rcases lost with absent | unsound
  · simp [noticed, absent]
  · simp [noticed, unsound]

/-- A rule for refused frames is applied as long as few of them were refused. -/
theorem Transfer.refuse_of_rule {t t' : Transfer} {reference : Block} {fault : BlockFault}
    {reaction : Reaction} (few : (t.refusing fault).errors < resyncLimit)
    (rule : (t.refusing fault).Rule reference (.refused fault) reaction t') :
    t.refuse reference fault = (reaction, t') := by
  have : resyncLimit = 3 := rfl
  have : resetLimit = 6 := rfl
  have noReset : ¬resetLimit ≤ (t.refusing fault).errors := by omega
  have noResync : ¬(resyncLimit ≤ (t.refusing fault).errors ∧ reference.pcb ≠ .request .resync) :=
    fun many => by omega
  simp only [refuse, if_neg noReset, if_neg noResync, answer?_eq_some_iff.mpr rule, Option.getD_some]

theorem Transfer.errors_refusing {t : Transfer} (fault : BlockFault) (few : t.errors < 2) :
    (t.refusing fault).errors = t.errors + 1 := by
  have : UInt32.size = 4294967296 := rfl
  exact Nat.mod_eq_of_lt (by omega)

/-- A lost frame is refused, and moves no bits. -/
theorem judge_of_isLost (t : Transfer) (s : Sequence) (reference : Block) {received : Frame}
    (lost : received.IsLost) : ∃ fault, judge t s reference received =
      ⟨(t.refuse reference fault).1, (t.refuse reference fault).2, s⟩ := by
  obtain ⟨fault, checked⟩ := s.fault?_of_isLost lost
  have refused : t.refusal? s reference received = some fault := by
    simp only [Transfer.refusal?, checked]
  exact ⟨fault, by rw [judge_of_refusal refused, Sequence.noticed_of_isLost _ _ lost]⟩

/-- The transfer without what refused frames leave in it. -/
def Transfer.calm (t : Transfer) : Transfer :=
  { t with errors := 0, resends := 0, wait := .one, complaint := none }

namespace Exchange

/-- The exchange without what refused frames leave in it. -/
def calm (x : Exchange) : Exchange := { x with transfer := x.transfer.calm, interjection := none }

/-- The references of an exchange that is never begun anew nor given up. -/
inductive IsPlain : Pcb → Prop where
  | info {seq more} : IsPlain (.info seq more)
  | ack {seq} : IsPlain (.ack seq)

/-- How an exchange gets over a lost frame: it counts it, and sends a receive-ready block next. -/
structure Survives (x y : Exchange) : Prop where
  calm : y.calm = x.calm
  errors : y.transfer.errors = x.transfer.errors + 1
  resends : y.transfer.resends ≤ x.transfer.resends + 1
  outgoing : ∃ seq other parity, y.outgoing.pcb = .ready seq other parity

variable {o : Options} {x : Exchange} {card : ScriptedCard}

/-- After a part of the payload the loss is reported. After an acknowledgement that is sent again. -/
theorem survives_of_isLost (idle : card.IsIdle) (lost : (card.next o).IsLost)
    (sent : IsPlain x.reference.pcb) (errors : x.transfer.errors < 2) (resends : x.transfer.resends < 2) :
    ∃ r y, round o x card =
        (r, .going y, (card.hearing (o.wire x.outgoing)).polled (x.timeout o)) ∧
      r.before = x ∧ x.Survives y := by
  obtain ⟨fault, verdict⟩ := judge_of_isLost x.transfer.waited x.sequence x.reference lost
  let t := x.transfer.waited.refusing fault
  have counted : t.errors = x.transfer.errors + 1 :=
    Transfer.errors_refusing (t := x.transfer.waited) fault errors
  have few : t.errors < resyncLimit := by
    rw [counted]
    exact Nat.succ_lt_succ errors
  generalize pcb : x.reference.pcb = reference at sent
  cases sent with
  -- The report is interjected, so the reference stays.
  | @info seq more =>
    rw [Transfer.refuse_of_rule few (.report pcb)] at verdict
    let y : Exchange := { x with transfer := t, interjection := some (.plain (fault.report seq)) }
    exact ⟨_, y, round_of_judge idle verdict, rfl, rfl, counted, Nat.le_succ _, _, _, _, rfl⟩
  -- The acknowledgement is the reference itself, and is counted as sent again.
  | @ack seq =>
    rw [Transfer.refuse_of_rule few (.repeat (by rw [pcb]; exact .ready))] at verdict
    have again : t.resends < resendLimit := Nat.lt_of_lt_of_le resends (by decide)
    let y : Exchange := { x with transfer := t.resending, interjection := none }
    refine ⟨⟨x, card.next o, ⟨.retransmit, t, x.sequence⟩⟩, y,
      (round_of_judge idle verdict).trans ?_, rfl, rfl, counted, Nat.le_refl _, _, _, _, pcb⟩
    change (_, (if t.resends < resendLimit then _ else _ : Step Exchange), _) = _
    rw [if_pos again]
    rfl

/-- Of these blocks, all but the first are receive-ready blocks. -/
def LeadsSent (first : Block) (sent : List Block) : Prop :=
  ∃ extra, sent = first :: extra ∧ ∀ b ∈ extra, ∃ seq other parity, b.pcb = .ready seq other parity

/-- As long as the counters allow, noise is survived: the exchange waits for the same block, and has
    sent nothing in between but receive-ready blocks. -/
theorem reaches_of_noise (plain : o.convention = none) {noise rest : List Reply}
    (noisy : ∀ reply ∈ noise, reply.IsNoise o) (idle : card.IsIdle)
    (replies : card.replies = noise ++ rest) (sent : IsPlain x.reference.pcb)
    (errors : x.transfer.errors + noise.length ≤ 2) (resends : x.transfer.resends + noise.length ≤ 2) :
    ∃ past y card', Reaches (round o) x card past y card' ∧ past.length = noise.length ∧
      card'.IsIdle ∧ card'.replies = rest ∧ y.calm = x.calm ∧
      LeadsSent x.outgoing ((past.map fun r => r.before.outgoing) ++ [y.outgoing]) := by
  -- By induction on the noise: each reply raises both counters by at most one.
  induction noise generalizing x card with
  | nil => exact ⟨[], x, card, .refl, rfl, idle, replies, rfl, [], rfl, nofun⟩
  | cons reply noise ih =>
    rw [List.length_cons] at errors resends
    have lost : (card.next o).IsLost := by
      have noise := Reply.isLost_of_isNoise plain (noisy reply List.mem_cons_self)
      rw [ScriptedCard.next, replies]
      exact noise
    obtain ⟨r, y, first, before, survives⟩ :=
      survives_of_isLost idle lost sent (by omega) (by omega)
    have counted := survives.errors
    have again := survives.resends
    have same : y.calm.reference = x.calm.reference := by rw [survives.calm]
    obtain ⟨past, z, card', reached, length, idle', replies', calm, extra, rounds, ready⟩ :=
      ih (x := y) (fun reply member => noisy reply (List.mem_cons_of_mem _ member))
        ((idle.hearing (o.wire x.outgoing)).polled (x.timeout o))
        (by rw [ScriptedCard.polled, ScriptedCard.hearing, replies]; rfl)
        (same ▸ sent) (by omega) (by omega)
    refine ⟨r :: past, z, card', reached.head first, by rw [List.length_cons, length, List.length_cons],
      idle', replies', calm.trans survives.calm, y.outgoing :: extra, ?_, ?_⟩
    · rw [List.map_cons, List.cons_append, rounds, before]
    · intro b member
      rcases List.mem_cons.mp member with rfl | later
      · exact survives.outgoing
      · exact ready b later

end Exchange

end CardLink
