import CardLink.Backend.ScriptedCard
import CardLink.Proofs.Sessions

/-!
# Which block the host asks for

A receive-ready block carries the sequence bit of an information block that its sender asks for. The only
information block of the card that passes the check is one with the other bit than its last one, so the
host should ask for that.

An acknowledgement does (`IsExpectant`). But the blocks that are sent in between, to report an error or to
nudge the card, carry the bit of the part of the payload that they stand in for. This is the right one as
long as both sides have sent parts of the same parity, and the wrong one otherwise. So the host asks for
the right block exactly as long as it has no occasion to send such a block in place of a part with the bit
of the card's last block (`expectations_of_history`).
-/

namespace CardLink

/-- The sequence bit that a receive-ready block asks for. -/
def Pcb.readyBit? : Pcb → Option Bool
  | .ready seq _ _ => some seq
  | .info _ _ | .super _ _ => none

namespace Round

/-- If a receive-ready block was sent, it asked for the card's next information block, which has the other
    bit than its last one. -/
def AsksForNext (r : Round Exchange) : Prop :=
  ∀ seq ∈ r.before.outgoing.pcb.readyBit?, seq = !r.before.sequence.card

/-- A receive-ready block was sent in place of a part of the payload, which had the bit of the card's last
    information block. -/
structure IsMisled (r : Round Exchange) : Prop where
  ready : r.before.outgoing.pcb.readyBit?.isSome = true
  parity : r.before.reference.pcb.infoBit? = some r.before.sequence.card

instance (r : Round Exchange) : Decidable r.AsksForNext :=
  inferInstanceAs (Decidable (∀ _ ∈ _, _))

end Round

namespace Exchange

variable {x y : Exchange} {r : Round Exchange}

/-- An acknowledgement asks for the block behind the one that it acknowledges. -/
theorem Judges.asked (judges : x.Judges r) {next : Block}
    (reaction : r.verdict.reaction = .proceed next) :
    ∀ seq ∈ next.pcb.readyBit?, seq = !r.verdict.sequence.card := by
  have judged := judges.judged
  generalize r.verdict = v at judged reaction
  cases judged with
  | accepted _ rule =>
    subst reaction
    cases rule with
    | part _ info =>
      rintro _ ⟨⟩
      change _ = !(Sequence.taken _ (r.received.block.pcb)).card
      rw [info]
      rfl
    | next => exact nofun
    | yield => exact nofun
  | refused _ recovers =>
    subst reaction
    cases recovers with
    | resync => exact nofun
    | rule _ _ rule => cases rule

/-- The card's bit moves only with a part of the response, and that leads to an acknowledgement or
    completes the exchange. -/
theorem Judges.card_of_stays (judges : x.Judges r) (stays : ∀ next, r.verdict.reaction ≠ .proceed next)
    (goesOn : r.verdict.reaction ≠ .complete) : r.verdict.sequence.card = x.sequence.card := by
  cases takes_of_judges judges with
  | part more _ _ _ _ _ proceeds completes =>
    cases more with
    | true =>
      obtain ⟨next, reaction⟩ := proceeds rfl
      exact absurd reaction (stays next)
    | false => exact absurd (completes rfl) goesOn
  | nothing _ card => exact card

/-- The bits that an exchange asks for in the block that it is going to send. -/
structure IsExpectant (x : Exchange) : Prop where
  reference : ∀ seq ∈ x.reference.pcb.readyBit?, seq = !x.sequence.card
  interjection : ∀ b ∈ x.interjection, ∀ seq ∈ b.pcb.readyBit?, x.reference.pcb.infoBit? = some seq

theorem isExpectant_begun (purpose : Purpose) (s : Sequence) (t : Transfer) (wasReset : Bool) :
    { start purpose s t with wasReset }.IsExpectant := by
  refine ⟨?_, nofun⟩
  cases purpose <;> exact nofun

theorem Interjects.infoBit? {next : Block} (interjects : x.Interjects r next) :
    ∀ seq ∈ next.pcb.readyBit?, x.reference.pcb.infoBit? = some seq := by
  cases interjects with
  | report _ sent => rintro _ ⟨⟩; rw [sent]; rfl
  | nudge sent => rintro _ ⟨⟩; rw [sent]; rfl
  | wait => exact nofun
  | resize => exact nofun

theorem isKept_isExpectant : IsKept fun _ x => x.IsExpectant := by
  intro _ x r y expectant judges leads
  cases leads with
  | again reaction =>
    refine ⟨fun seq ready => ?_, nofun⟩
    have card := judges.card_of_stays (by simp [reaction]) (by simp [reaction])
    exact (expectant.reference seq ready).trans (congrArg not card.symm)
  | resync => exact ⟨nofun, nofun⟩
  | proceed reaction => exact ⟨judges.asked reaction, nofun⟩
  | interject reaction =>
    refine ⟨fun seq ready => ?_, ?_⟩
    · have card := judges.card_of_stays (by simp [reaction]) (by simp [reaction])
      exact (expectant.reference seq ready).trans (congrArg not card.symm)
    · rintro _ ⟨⟩
      exact (interjects_of_interject judges reaction).infoBit?
  | restart => exact isExpectant_begun ..
  | reset => exact isExpectant_begun ..

/-- A receive-ready block is an acknowledgement, or is sent in place of a part of the payload. -/
theorem IsExpectant.outgoing (expectant : x.IsExpectant) :
    ∀ seq ∈ x.outgoing.pcb.readyBit?, x.reference.pcb.infoBit? = some seq ∨
      x.reference.pcb.infoBit? = none ∧ seq = !x.sequence.card := by
  intro seq ready
  unfold Exchange.outgoing at ready
  cases sent : x.interjection with
  | some b =>
    rw [sent] at ready
    exact .inl (expectant.interjection b sent seq ready)
  | none =>
    rw [sent] at ready
    refine .inr ⟨?_, expectant.reference seq ready⟩
    change seq ∈ x.reference.pcb.readyBit? at ready
    cases pcb : x.reference.pcb with
    | info => rw [pcb] at ready; cases ready
    | ready => rfl
    | super => rfl

/-- Unless it is misled, an exchange asks for the right block. -/
theorem IsExpectant.asksForNext_iff (expectant : r.before.IsExpectant) : r.AsksForNext ↔ ¬r.IsMisled := by
  constructor
  · intro asks misled
    obtain ⟨seq, ready⟩ := Option.isSome_iff_exists.mp misled.ready
    have next := asks seq ready
    rcases expectant.outgoing seq ready with bit | ⟨none, -⟩
    · rw [misled.parity, next] at bit
      simp at bit
    · rw [misled.parity] at none
      cases none
  · intro led seq ready
    rcases expectant.outgoing seq ready with bit | ⟨-, next⟩
    · refine Bool.eq_not_of_ne fun same => led ⟨Option.isSome_iff_exists.mpr ⟨seq, ready⟩, ?_⟩
      rw [bit, same]
    · exact next

end Exchange

/-! ## Sessions -/

namespace Session

variable {σ : Type} [Backend σ]

/-- Which blocks a session asks for, whatever operations are performed. -/
structure Expectations (s : Session σ) (ops : List Operation) : Prop where
  -- An acknowledgement asks for the card's next block, also when it is sent again
  acks : ∀ r ∈ s.history ops, r.before.interjection = none → r.AsksForNext
  -- What is sent in place of a part of the payload asks for the block with the bit of that part
  reports : ∀ r ∈ s.history ops, ∀ b ∈ r.before.interjection, ∀ seq ∈ b.pcb.readyBit?,
    r.before.reference.pcb.infoBit? = some seq
  -- So the card's next block is asked for unless that bit is the one of the card's last block
  exact : (∀ r ∈ s.history ops, r.AsksForNext) ↔ ∀ r ∈ s.history ops, ¬r.IsMisled

theorem isExpectant_of_mem_history (s : Session σ) (ops : List Operation) {r : Round Exchange}
    (member : r ∈ s.history ops) : r.before.IsExpectant := by
  obtain ⟨_, _, split⟩ := List.append_of_mem member
  obtain ⟨earlier, op, within, later, split, -⟩ := s.exists_rounds_of_history ops split
  obtain ⟨purpose, payload, buffer, rounds, -⟩ := (s.after earlier).exists_exchange op
  rw [rounds] at split
  obtain ⟨y, expectant, judges⟩ :=
    Exchange.isKept_isExpectant.of_split (Exchange.isExpectant_begun _ _ _ false) split
  rwa [judges.before]

theorem expectations_of_history (s : Session σ) (ops : List Operation) : s.Expectations ops := by
  refine ⟨fun r member quiet seq ready => ?_, fun r member => ?_, ?_⟩
  · have outgoing : r.before.outgoing = r.before.reference := by rw [Exchange.outgoing, quiet]; rfl
    rw [outgoing] at ready
    exact (s.isExpectant_of_mem_history ops member).reference seq ready
  · exact (s.isExpectant_of_mem_history ops member).interjection
  · exact forall₂_congr fun r member => (s.isExpectant_of_mem_history ops member).asksForNext_iff

/-- A card responds in two parts, and is silent when the next payload is sent. The host has sent one part and
    received two, so it asks for the second of them again instead of the next one. -/
theorem misled_of_parity :
    let card := ScriptedCard.ofReplies [.frame (Frame.wire 0xA5 (.info false true) [1]),
      .frame (Frame.wire 0xA5 (.info true false) [2]), .silence,
      .frame (Frame.wire 0xA5 (.info false false) [0x90, 0])]
    let s : Session ScriptedCard := ⟨{ card with opened := true }, card.settings, .fresh, none⟩
    let ops := [Operation.transceive [1] 2, .transceive [2] 2]
    (Setup.announced card).connect = .ok s ∧
    (s.after ops).backend.heardPcbs =
      [.info false false, .ack true, .info true false, .ready true true false] ∧
    (s.history ops).map (fun r => r.before.sequence.card) = [true, false, true, true] ∧
    ¬∀ r ∈ s.history ops, r.AsksForNext := by
  exact ⟨rfl, by decide +kernel, by decide +kernel, by decide +kernel⟩

end Session

end CardLink
