import CardLink.Backend.ScriptedCard
import CardLink.Proofs.Patience
import CardLink.Proofs.Refinement
import CardLink.Proofs.Transmission

/-!
# How large the blocks are

The card may ask for blocks of another size, and the host agrees to it in a block of its own. From then on,
until it agrees to another size or both sides start again, the host fills its blocks with no more than
that. But the block that it was sending when it was asked has been filled before, and is not filled anew:
whenever it is sent again, it is as large as it was.

So the size in force is exceeded by such blocks, and by no others (`keepsSize_iff`).
-/

namespace CardLink

/-- The size that the host agrees to in a block. -/
def Block.agreedSize? (b : Block) : Option Ifs :=
  if b.pcb = .response .ifs then b.value?.bind Ifs.ofByte? else none

theorem Block.agreedSize?_of_ne {b : Block} (other : b.pcb ≠ .response .ifs) : b.agreedSize? = none :=
  if_neg other

theorem Block.agreedSize?_response (ifs : Ifs) :
    (Block.valued (.response .ifs) ifs.val).agreedSize? = some ifs := Ifs.ofByte?_val ifs

namespace Round

/-- The size that the host has agreed to in a round. -/
def agreedSize? (r : Round Exchange) : Option Ifs := r.before.outgoing.agreedSize?

/-- The size in force after some rounds, which is the largest one where an exchange is begun. -/
def sizeInForce (rounds : List (Round Exchange)) : Ifs :=
  ((sinceRestart rounds).filterMap agreedSize?).getLast?.getD .largest

/-- A part of the payload was the reference when the host last agreed to a size, and is larger. -/
def IsOutgrown (rounds : List (Round Exchange)) (b : Block) : Prop :=
  b.pcb.isInfo = true ∧ ∃ earlier r later ifs, sinceRestart rounds = earlier ++ r :: later ∧
    r.before.reference = b ∧ r.agreedSize? = some ifs ∧ ifs.toNat < b.inf.length ∧
      ∀ r' ∈ later, r'.agreedSize? = none

/-- No part of the payload that was sent was larger than the size in force. -/
def KeepsSize (rounds : List (Round Exchange)) : Prop :=
  ∀ i, ∀ _ : i < rounds.length, rounds[i].before.outgoing.pcb.isInfo = true →
    rounds[i].before.outgoing.inf.length ≤ (sizeInForce (rounds.take i)).toNat

instance (rounds : List (Round Exchange)) : Decidable (KeepsSize rounds) :=
  inferInstanceAs (Decidable (∀ i, ∀ _ : i < rounds.length, _ → _))

variable {rounds : List (Round Exchange)} {r : Round Exchange} {b : Block}

theorem sizeInForce_of_restart (restart : r.isRestart = true) :
    sizeInForce (rounds ++ [r]) = .largest := by
  rw [sizeInForce, sinceRestart_of_restart restart]
  rfl

theorem sizeInForce_of_not (goesOn : r.isRestart = false) :
    sizeInForce (rounds ++ [r]) = r.agreedSize?.getD (sizeInForce rounds) := by
  rw [sizeInForce, sinceRestart_of_not goesOn, List.filterMap_append, List.getLast?_append]
  cases agreed : r.agreedSize? <;> simp [agreed, sizeInForce]

/-- A block that is outgrown is too large. -/
theorem IsOutgrown.exceeds (outgrown : IsOutgrown rounds b) :
    (sizeInForce rounds).toNat < b.inf.length := by
  obtain ⟨-, earlier, r, later, ifs, split, -, agreed, larger, others⟩ := outgrown
  have nothing : later.filterMap agreedSize? = [] := List.filterMap_eq_nil_iff.mpr others
  have last : sizeInForce rounds = ifs := by
    rw [sizeInForce, split, List.filterMap_append, List.filterMap_cons_some agreed, nothing,
      List.getLast?_concat]
    rfl
  rwa [last]

/-- A part of the payload that is either small enough or outgrown is so after it was the reference of one
    more round. -/
theorem fits_append (goesOn : r.isRestart = false) (info : b.pcb.isInfo = true)
    (sent : r.before.reference = b)
    (fits : b.inf.length ≤ (sizeInForce rounds).toNat ∨ IsOutgrown rounds b) :
    b.inf.length ≤ (sizeInForce (rounds ++ [r])).toNat ∨ IsOutgrown (rounds ++ [r]) b := by
  rw [sizeInForce_of_not goesOn]
  cases agreed : r.agreedSize? with
  | some ifs =>
    rcases Nat.lt_or_ge ifs.toNat b.inf.length with larger | small
    · exact .inr ⟨info, _, r, [], ifs, sinceRestart_of_not goesOn, sent, agreed, larger,
        List.forall_mem_nil _⟩
    · exact .inl small
  | none =>
    refine fits.imp id fun ⟨_, earlier, r', later, ifs, split, sent', agreed', larger, others⟩ => ?_
    refine ⟨info, earlier, r', later ++ [r], ifs, ?_, sent', agreed', larger, ?_⟩
    · rw [sinceRestart_of_not goesOn, split, List.append_assoc]
      rfl
    · intro r'' member
      rcases List.mem_append.mp member with before | now
      · exact others r'' before
      · rw [List.mem_singleton.mp now, agreed]

end Round

namespace Exchange

variable {x y : Exchange} {r : Round Exchange} {past : List (Round Exchange)}

/-- A block sent in between changes the size if it agrees to another one. -/
theorem Interjects.size {next : Block} (interjects : x.Interjects r next) :
    r.verdict.transfer.ifs = next.agreedSize?.getD x.transfer.ifs := by
  cases interjects with
  | report _ _ transfer => rw [transfer]; rfl
  | nudge _ transfer => rw [transfer]; rfl
  | wait _ _ _ transfer => rw [transfer]; rfl
  | resize _ _ _ transfer => rw [transfer, Block.agreedSize?_response]; rfl

/-- The transfer fills blocks of the size that will be in force once the next block has been sent, and the
    reference fits, or is outgrown. -/
structure IsSized (past : List (Round Exchange)) (x : Exchange) : Prop where
  regular : x.IsRegular
  size : x.transfer.ifs = x.outgoing.agreedSize?.getD (Round.sizeInForce past)
  quiet : ∀ b, x.interjection = some b → b.pcb.isInfo = false
  fits : x.reference.pcb.isInfo = true →
    x.reference.inf.length ≤ (Round.sizeInForce past).toNat ∨ Round.IsOutgrown past x.reference

/-- Only a block that is sent in between agrees to a size. -/
theorem IsRegular.agreedSize? (regular : x.IsRegular) : x.reference.agreedSize? = none :=
  Block.agreedSize?_of_ne (regular.retried.ne_response (by decide))

theorem isSized_begun (largest : Round.sizeInForce past = .largest) (purpose : Purpose) (s : Sequence)
    (payload buffer : Bytes) (wasReset : Bool) :
    IsSized past { start purpose s (.into payload buffer) with wasReset } := by
  have regular : { start purpose s (.into payload buffer) with wasReset }.IsRegular :=
    ⟨isSteady_of_zero (errors_begun ..) (resends_begun ..), isRetried_start ..⟩
  refine ⟨regular, ?_, nofun, fun info => ?_⟩
  · change (purpose.begun (.into payload buffer)).ifs =
      (purpose.firstBlock s (.into payload buffer)).agreedSize?.getD _
    rw [largest, show (purpose.firstBlock s _).agreedSize? = none from regular.agreedSize?]
    cases purpose <;> rfl
  · rw [largest]
    cases purpose with
    | transceive => exact .inl (Transfer.length_nextInf_le _)
    | negotiateIfs => cases info
    | abort => cases info

/-- In a round that goes on, the size comes into force that blocks are filled with. -/
theorem IsSized.inForce (sized : IsSized past x) (judges : x.Judges r) (goesOn : r.isRestart = false) :
    Round.sizeInForce (past ++ [r]) = x.transfer.ifs := by
  rw [Round.sizeInForce_of_not goesOn, Round.agreedSize?, judges.before, sized.size]

/-- A new reference is to be no larger than the blocks that are filled. -/
theorem IsSized.referring (sized : IsSized past x) (judges : x.Judges r) {next : Block}
    (leads : x.Leads r.verdict ((x.judged r.verdict).referring next))
    (other : ∀ b, r.verdict.reaction ≠ .interject b) (goesOn : r.isRestart = false)
    (small : next.pcb.isInfo = true → next.inf.length ≤ x.transfer.ifs.toNat) :
    IsSized (past ++ [r]) ((x.judged r.verdict).referring next) := by
  have regular := sized.regular.leads judges leads
  refine ⟨regular, ?_, nofun, fun info => .inl ?_⟩
  · change r.verdict.transfer.ifs = next.agreedSize?.getD _
    rw [(judges.terms other).2, show next.agreedSize? = none from regular.agreedSize?,
      sized.inForce judges goesOn]
    rfl
  · rw [sized.inForce judges goesOn]
    exact small info

theorem isKept_isSized : IsKept IsSized := by
  intro past x r y sized judges leads
  have regular := sized.regular.leads judges leads
  have quiet := interjection_of_leads judges leads
  have same (goesOn : r.isRestart = false) (info : x.reference.pcb.isInfo = true) :=
    Round.fits_append goesOn info (congrArg Exchange.reference judges.before) (sized.fits info)
  have how := leads
  cases leads with
  | again reaction =>
    have goesOn := Round.isRestart_of_ne (r := r) (by simp [reaction])
    refine ⟨regular, ?_, quiet, same goesOn⟩
    change r.verdict.transfer.ifs = x.reference.agreedSize?.getD _
    rw [(judges.terms (by simp [reaction])).2, sized.regular.agreedSize?, sized.inForce judges goesOn]
    rfl
  | resync reaction =>
    exact sized.referring judges how (by simp [reaction])
      (Round.isRestart_of_ne (by simp [reaction])) nofun
  | proceed reaction =>
    refine sized.referring judges how (by simp [reaction])
      (Round.isRestart_of_ne (by simp [reaction])) fun info => ?_
    cases refers_of_proceed judges reaction with
    | ack => cases info
    | abort => cases info
    | resync => cases info
    | next => exact List.length_take_le ..
  | interject reaction =>
    have goesOn := Round.isRestart_of_ne (r := r) (by simp [reaction])
    refine ⟨regular, ?_, quiet, same goesOn⟩
    rw [sized.inForce judges goesOn]
    exact (interjects_of_interject judges reaction).size
  | restart reaction =>
    exact isSized_begun (Round.sizeInForce_of_restart (Round.isRestart_iff.mpr reaction)) ..
  | reset reaction => exact absurd reaction (sized.regular.steady.reaction_ne_resetDevice judges)

/-- Whatever part of the payload is sent is small enough or outgrown. -/
theorem exceeds_iff_of_split {σ : Type} [Backend σ] {purpose : Purpose} {s : Sequence}
    {payload buffer : Bytes} {o : Options} {n : Nat} {bus : σ} {rest : List (Round Exchange)}
    (split : ((start purpose s (.into payload buffer)).runFor o n bus).rounds = past ++ r :: rest)
    (info : r.before.outgoing.pcb.isInfo = true) :
    (Round.sizeInForce past).toNat < r.before.outgoing.inf.length ↔
      Round.IsOutgrown past r.before.outgoing := by
  obtain ⟨y, sized, judges⟩ := isKept_isSized.of_split (isSized_begun rfl ..) split
  refine ⟨fun larger => ?_, Round.IsOutgrown.exceeds⟩
  rw [judges.before] at info larger ⊢
  have reference := outgoing_of_info sized.quiet info
  rw [reference] at info larger ⊢
  exact (sized.fits info).resolve_left (Nat.not_le_of_lt larger)

end Exchange

/-! ## Exchanges of a host -/

/-- The blocks of an exchange keep to the size in force exactly as long as the host does not send a part of
    the payload again for which it has agreed to a smaller size. -/
theorem Host.keepsSize_iff {σ : Type} [Backend σ] (purpose : Purpose) (s : Sequence)
    (payload buffer : Bytes) (o : Options) (n : Nat) (bus : σ) :
    let course := (start purpose s (.into payload buffer)).runFor o n bus
    let rounds := course.rounds.map (Round.map view)
    Round.KeepsSize rounds ↔ ∀ i, ∀ _ : i < rounds.length,
      ¬Round.IsOutgrown (rounds.take i) rounds[i].before.outgoing := by
  intro course rounds
  have seen : ((Exchange.start purpose s (.into payload buffer)).runFor o n bus).rounds = rounds :=
    congrArg Course.rounds (runFor_start ..)
  have split (i : Nat) (within : i < rounds.length) :
      rounds = rounds.take i ++ rounds[i] :: rounds.drop (i + 1) := by
    rw [List.getElem_cons_drop, List.take_append_drop]
  refine forall_congr' fun i => forall_congr' fun within => ⟨fun keeps outgrown => ?_, fun keeps info => ?_⟩
  · exact Nat.not_lt_of_le (keeps outgrown.1) outgrown.exceeds
  · exact Nat.le_of_not_lt fun larger =>
      keeps ((Exchange.exceeds_iff_of_split (seen.trans (split i within)) info).mp larger)

/-- A card asks for blocks of one byte when it is sent two, and then asks for the block again. -/
theorem Host.exceeds_of_repeat :
    let card := ScriptedCard.ofReplies [.frame (Frame.wire 0xA5 (.request .ifs) [1]),
      .frame (Frame.wire 0xA5 (.ack false) []), .frame (Frame.wire 0xA5 (.ack true) []),
      .frame (Frame.wire 0xA5 (.info false false) [0x90, 0])]
    let course := (start .transceive .fresh (.into [1, 2] [0, 0])).run card.settings card
    course.bus.heard = [Frame.wire 0x5A (.info false false) [1, 2], Frame.wire 0x5A (.response .ifs) [1],
      Frame.wire 0x5A (.info false false) [1, 2], Frame.wire 0x5A (.ack false) []] ∧
    course.ending = .completed [0x90, 0] ∧
    ¬Round.KeepsSize (course.rounds.map (Round.map view)) := by
  exact ⟨by decide +kernel, by decide +kernel, by decide +kernel⟩

end CardLink
