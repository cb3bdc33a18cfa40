import CardLink.Proofs.Reception

/-!
# What the sequence bits stand for

The sequence bits that a host remembers are a summary of its rounds since the last new start
(`Round.Tracks`): the card's bit is that of the last information block that was accepted, and the host's
bit that of the last information block in answer to which a sound frame came. The bits of the accepted
blocks alternate, and begin with zero.

Neither depends on how an exchange ends, so this is preserved from one exchange to the next
(`tracks_runFor`). Of an exchange that was completed, or that the card has given up, it is also known that
the last information block that was sent has been answered (`sent_of_runFor`).
-/

namespace CardLink

/-- The sequence bit of an information block. -/
def Pcb.infoBit? : Pcb → Option Bool
  | .info seq _ => some seq
  | .ready _ _ _ | .super _ _ => none

namespace Sequence

theorem host_answered (s : Sequence) (sent : Pcb) :
    (s.answered sent).host = sent.infoBit?.getD s.host := by
  cases sent <;> rfl

theorem host_taken (s : Sequence) (received : Pcb) : (s.taken received).host = s.host := by
  cases received <;> rfl

theorem host_noticed (s : Sequence) (sent : Pcb) (received : Frame) :
    (s.noticed sent received).host = (if received.isAbsent = false ∧ received.isSound = true then
      sent.infoBit? else none).getD s.host := by
  unfold noticed
  cases received.isAbsent <;> cases received.isSound <;> simp [host_answered]

end Sequence

/-! ## The bits of some rounds -/

namespace Round

/-- The bit of the card's block, if an information block was accepted in the round. -/
def cardBit? (r : Round Exchange) : Option Bool := r.part?.bind fun f => f.pcb.infoBit?

/-- The bit of the reference, if it is an information block and a sound frame came in answer. -/
def hostBit? (r : Round Exchange) : Option Bool :=
  if r.received.isAbsent = false ∧ r.received.isSound = true then r.before.reference.pcb.infoBit?
  else none

/-- The bit of the block that was sent, if it is an information block. -/
def sentBit? (r : Round Exchange) : Option Bool := r.before.outgoing.pcb.infoBit?

def cardBits (rounds : List (Round Exchange)) : List Bool := (sinceRestart rounds).filterMap cardBit?

def hostBits (rounds : List (Round Exchange)) : List Bool := (sinceRestart rounds).filterMap hostBit?

def sentBits (rounds : List (Round Exchange)) : List Bool := rounds.filterMap sentBit?

/-- Sequence bits are those of the last blocks since the last new start. -/
structure Tracks (rounds : List (Round Exchange)) (s : Sequence) : Prop where
  -- The blocks that were accepted carry alternating bits from zero on
  alternates : cardBits rounds = (List.range (cardBits rounds).length).map (Sequence.bitAt false)
  card : s.card = (cardBits rounds).getLast?.getD true
  host : s.host = (hostBits rounds).getLast?.getD true

variable {rounds : List (Round Exchange)} {r : Round Exchange} {s : Sequence}

theorem filterMap_concat {α : Type} (f : Round Exchange → Option α) (rounds : List (Round Exchange))
    (r : Round Exchange) : (rounds ++ [r]).filterMap f = rounds.filterMap f ++ (f r).toList := by
  rw [List.filterMap_append]
  cases bit : f r <;> simp [bit]

theorem getLast?_concat? (bits : List Bool) (bit? : Option Bool) :
    (bits ++ bit?.toList).getLast? = bit?.or bits.getLast? := by
  cases bit? <;> simp

theorem cardBits_of_not (goesOn : r.isRestart = false) :
    cardBits (rounds ++ [r]) = cardBits rounds ++ r.cardBit?.toList := by
  rw [cardBits, sinceRestart_of_not goesOn, filterMap_concat]
  rfl

theorem hostBits_of_not (goesOn : r.isRestart = false) :
    hostBits (rounds ++ [r]) = hostBits rounds ++ r.hostBit?.toList := by
  rw [hostBits, sinceRestart_of_not goesOn, filterMap_concat]
  rfl

/-- With nothing behind them, both bits are as they are before the first block. -/
theorem tracks_of_nothing (nothing : sinceRestart rounds = []) : Tracks rounds .fresh := by
  have card : cardBits rounds = [] := by rw [cardBits, nothing, List.filterMap_nil]
  have host : hostBits rounds = [] := by rw [hostBits, nothing, List.filterMap_nil]
  exact ⟨by rw [card]; rfl, by rw [card]; rfl, by rw [host]; rfl⟩

/-- How many blocks were accepted says which bit was the last. -/
theorem Tracks.card_eq (tracks : Tracks rounds s) :
    s.card = Sequence.bitAt true (cardBits rounds).length := by
  rw [tracks.card, tracks.alternates, List.length_map, List.length_range]
  cases (cardBits rounds).length with
  | zero => rfl
  | succ n =>
    rw [List.range_succ, List.map_append, List.map_singleton, List.getLast?_concat]
    exact Sequence.bitAt_not true n

end Round

/-! ## What a round does to the bits -/

namespace Exchange

open Round (Tracks cardBits hostBits sentBits)

variable {x y : Exchange} {r : Round Exchange} {past : List (Round Exchange)}

theorem Judges.card (judges : x.Judges r) : (r.cardBit? = none ∨ r.cardBit? = some (!x.sequence.card)) ∧
    r.verdict.sequence.card = r.cardBit?.getD x.sequence.card := by
  cases takes_of_judges judges with
  | part more part _ info card =>
    have bit : r.cardBit? = some (!x.sequence.card) := by
      rw [Round.cardBit?, part, Option.bind_some, info]
      rfl
    rw [bit]
    exact ⟨.inr rfl, card⟩
  | nothing part card =>
    have bit : r.cardBit? = none := by
      rw [Round.cardBit?, part]
      rfl
    rw [bit]
    exact ⟨.inl rfl, card⟩

theorem Judges.host (judges : x.Judges r) :
    r.verdict.sequence.host = r.hostBit?.getD x.sequence.host := by
  have judged := judges.judged
  have bit : r.hostBit? = if r.received.isAbsent = false ∧ r.received.isSound = true then
      x.reference.pcb.infoBit? else none := by
    rw [Round.hostBit?, judges.before]
  generalize r.verdict = v at judged
  cases judged with
  | accepted passed =>
    obtain ⟨present, sound, -⟩ := Sequence.fault?_eq_none_iff.mp passed
    rw [bit, if_pos ⟨present, sound⟩]
    exact (Sequence.host_taken _ _).trans (Sequence.host_answered _ _)
  | refused =>
    rw [bit]
    exact Sequence.host_noticed ..

/-- A round that is not a new start adds its bits to those before. -/
theorem tracks_judged (tracks : Tracks past x.sequence) (judges : x.Judges r)
    (goesOn : r.isRestart = false) : Tracks (past ++ [r]) r.verdict.sequence := by
  obtain ⟨bit, card⟩ := judges.card
  refine ⟨?_, ?_, ?_⟩
  · rw [Round.cardBits_of_not goesOn]
    rcases bit with nothing | accepted
    · rw [nothing, Option.toList_none, List.append_nil]
      exact tracks.alternates
    -- The next bit is the other one than the last.
    · have next : (!x.sequence.card) = Sequence.bitAt false (cardBits past).length := by
        rw [tracks.card_eq]
        exact (Sequence.bitAt_not true _).symm
      rw [accepted, Option.toList_some, List.length_append, List.length_singleton, List.range_succ,
        List.map_append, List.map_singleton, ← tracks.alternates, next]
  · rw [Round.cardBits_of_not goesOn, Round.getLast?_concat?, card, tracks.card]
    cases r.cardBit? <;> rfl
  · rw [Round.hostBits_of_not goesOn, Round.getLast?_concat?, judges.host, tracks.host]
    cases r.hostBit? <;> rfl

theorem tracks_of_leads (tracks : Tracks past x.sequence) (steady : x.IsSteady) (judges : x.Judges r)
    (leads : x.Leads r.verdict y) : Tracks (past ++ [r]) y.sequence := by
  rcases leads.cases steady judges with ⟨restart, rfl⟩ | ⟨goesOn, carries⟩
  · exact Round.tracks_of_nothing (Round.sinceRestart_of_restart restart)
  · rw [carries.sequence]
    exact tracks_judged tracks judges goesOn

theorem tracks_of_ends {ending : Ending} (tracks : Tracks past x.sequence) (judges : x.Judges r)
    (ends : x.Ends r.verdict ending y) : Tracks (past ++ [r]) y.sequence := by
  have sequence : y.sequence = r.verdict.sequence := by cases ends <;> rfl
  rw [sequence]
  exact tracks_judged tracks judges ends.isRestart

/-! ## From exchange to exchange -/

section Run

variable {σ : Type} [Backend σ] {o : Options} {bus bus' : σ} {front : List (Round Exchange)}

theorem isKept_tracks (front : List (Round Exchange)) :
    IsKept fun past y => Tracks (front ++ past) y.sequence ∧ y.IsSteady := by
  rintro past x r y ⟨tracks, steady⟩ judges leads
  rw [← List.append_assoc]
  exact ⟨tracks_of_leads tracks steady judges leads, steady.leads judges leads⟩

/-- The bits are right before every round, and after the last one. -/
theorem tracks_runFor (tracks : Tracks front x.sequence) (steady : x.IsSteady) (o : Options) (n : Nat)
    (bus : σ) : (∀ past r rest, (x.runFor o n bus).rounds = past ++ r :: rest →
        Tracks (front ++ past) r.before.sequence) ∧
      Tracks (front ++ (x.runFor o n bus).rounds) (x.runFor o n bus).last.sequence := by
  rw [← List.append_nil front] at tracks
  constructor
  · intro past r rest split
    obtain ⟨y, ⟨tracks, -⟩, judges⟩ := (isKept_tracks front).of_split ⟨tracks, steady⟩ split
    rwa [judges.before]
  · rcases (isKept_tracks front).runFor ⟨tracks, steady⟩ o n bus with
      ⟨-, tracks, -⟩ | ⟨past, y, r, rounds, ⟨tracks, -⟩, judges, ends⟩
    · exact tracks
    · rw [rounds, ← List.append_assoc]
      exact tracks_of_ends tracks judges ends

end Run

/-! ## The last information block -/

/-- A sound frame that is accepted answers the reference. -/
theorem host_of_accepted (judges : x.Judges r) (passed : x.sequence.fault? r.received = none) :
    r.verdict.sequence.host = (x.sequence.answered x.reference.pcb).host := by
  obtain ⟨present, sound, -⟩ := Sequence.fault?_eq_none_iff.mp passed
  rw [judges.host, Round.hostBit?, if_pos ⟨present, sound⟩, judges.before, Sequence.host_answered]

theorem host_answered_judged (judges : x.Judges r) :
    (r.verdict.sequence.answered x.reference.pcb).host = (x.sequence.answered x.reference.pcb).host := by
  rw [Sequence.host_answered, Sequence.host_answered, judges.host, Round.hostBit?, judges.before]
  cases x.reference.pcb.infoBit? <;> simp

/-- What is known of the last information block that was sent, unless a new start is asked for. -/
inductive Speaks (past : List (Round Exchange)) (y : Exchange) : Prop where
  | asks (sent : y.reference.pcb = .request .resync)
  -- It is about to be sent
  | begins (info : y.reference.pcb.isInfo = true) (quiet : y.interjection = none)
  -- It is the reference, or the last block that the card has answered
  | spoken (bit : (sentBits past).getLast? = some (y.sequence.answered y.reference.pcb).host)
      (other : ∀ b, y.interjection = some b → b.pcb.isInfo = false)

theorem Speaks.bit (speaks : Speaks past x) (sent : x.reference.pcb ≠ .request .resync)
    (judges : x.Judges r) :
    (sentBits (past ++ [r])).getLast? = some (x.sequence.answered x.reference.pcb).host := by
  rw [sentBits, Round.filterMap_concat, Round.getLast?_concat?, Round.sentBit?, judges.before, outgoing,
    Sequence.host_answered]
  cases speaks with
  | asks resync => exact absurd resync sent
  | begins info quiet =>
    obtain ⟨seq, more, pcb⟩ := Pcb.isInfo_iff.mp info
    rw [quiet, Option.getD_none, pcb]
    rfl
  | spoken bit other =>
    rw [Sequence.host_answered] at bit
    cases interjection : x.interjection with
    | none =>
      rw [Option.getD_none]
      cases info : x.reference.pcb.infoBit? with
      | none =>
        rw [info] at bit
        exact bit
      | some seq => rfl
    | some b =>
      have nothing : b.pcb.infoBit? = none := by
        have other := other b interjection
        cases pcb : b.pcb with
        | info => rw [pcb] at other; cases other
        | ready => rfl
        | super => rfl
      rw [Option.getD_some, nothing]
      exact bit

theorem Speaks.bit_of_rule (speaks : Speaks past x) (judges : x.Judges r) {reaction : Reaction}
    {t' : Transfer} (passed : x.sequence.fault? r.received = none)
    (rule : x.transfer.waited.Rule x.reference (.block r.received.block) reaction t')
    (goesOn : reaction ≠ .resetSession) :
    (sentBits (past ++ [r])).getLast? = some r.verdict.sequence.host := by
  rw [host_of_accepted judges passed]
  exact speaks.bit (fun asked => goesOn (rule.reaction_of_resync asked)) judges

theorem Speaks.of_same_reference (speaks : Speaks past x) (judges : x.Judges r)
    (reference : y.reference = x.reference) (sequence : y.sequence = r.verdict.sequence)
    (other : ∀ b, y.interjection = some b → b.pcb.isInfo = false) : Speaks (past ++ [r]) y := by
  by_cases sent : x.reference.pcb = .request .resync
  · exact .asks (reference ▸ sent)
  · refine .spoken ?_ other
    rw [reference, sequence, host_answered_judged judges]
    exact speaks.bit sent judges

/-- A new reference is an information block, or the card has answered the last one. -/
theorem Speaks.proceed (speaks : Speaks past x) (judges : x.Judges r) {next : Block}
    (reaction : r.verdict.reaction = .proceed next) :
    Speaks (past ++ [r]) ((x.judged r.verdict).referring next) := by
  have judged := judges.judged
  generalize verdict : r.verdict = v at judged reaction
  cases judged with
  | accepted passed rule =>
    subst reaction
    have bit := speaks.bit_of_rule judges passed rule nofun
    rw [verdict] at bit
    cases rule with
    | part => exact .spoken bit nofun
    | next => exact .begins rfl rfl
    | yield => exact .spoken bit nofun
  | refused _ recovers =>
    subst reaction
    cases recovers with
    | resync => exact .asks rfl
    | rule _ _ rule => cases rule

theorem speaks_restarted (past : List (Round Exchange)) (transceives : x.purpose = .transceive) :
    Speaks past x.restarted := by
  refine .begins ?_ rfl
  rw [show x.restarted.reference = x.purpose.firstBlock .fresh x.transfer.rewound from rfl, transceives]
  rfl

theorem Speaks.leads (speaks : Speaks past x) (transceives : x.purpose = .transceive)
    (judges : x.Judges r) (leads : x.Leads r.verdict y) :
    Speaks (past ++ [r]) y ∧ y.purpose = .transceive := by
  cases leads with
  | again => exact ⟨speaks.of_same_reference judges rfl rfl nofun, transceives⟩
  | resync => exact ⟨.asks rfl, transceives⟩
  | proceed reaction => exact ⟨speaks.proceed judges reaction, transceives⟩
  | interject reaction =>
    refine ⟨speaks.of_same_reference judges rfl rfl fun b interjection => ?_, transceives⟩
    cases interjection
    exact isInfo_of_interject judges reaction
  | restart => exact ⟨speaks_restarted _ transceives, transceives⟩
  | reset =>
    refine ⟨?_, transceives⟩
    exact speaks_restarted (x := { x.judged r.verdict with wasReset := true }) _ transceives

/-- An exchange that is completed or given up by the card ends with an answer to the last information
    block that was sent. -/
theorem Speaks.ends (speaks : Speaks past x) (judges : x.Judges r) {ending : Ending}
    (ends : x.Ends r.verdict ending y)
    (settled : (∃ response, ending = .completed response) ∨ ending = .failed .abort) :
    (sentBits (past ++ [r])).getLast? = some y.sequence.host := by
  have reaction : r.verdict.reaction = .complete ∨ r.verdict.reaction = .abort := by
    cases ends with
    | completed reaction => exact .inl reaction
    | aborted reaction => exact .inr reaction
    | gaveUp => rcases settled with ⟨_, completed⟩ | aborted <;> simp_all [Transfer.givenUp]
    | unanswered => rcases settled with ⟨_, completed⟩ | aborted <;> simp_all [Ending.unanswered]
    | notReset => rcases settled with ⟨_, completed⟩ | aborted <;> simp_all
  have sequence : y.sequence = r.verdict.sequence := by cases ends <;> rfl
  rw [sequence]
  have judged := judges.judged
  generalize verdict : r.verdict = v at judged reaction
  cases judged with
  | accepted passed rule =>
    have bit := speaks.bit_of_rule judges passed rule (by rintro rfl; simp at reaction)
    rwa [verdict] at bit
  | refused _ recovers =>
    cases recovers with
    | rule _ _ rule => cases rule <;> simp at reaction
    | _ => simp at reaction

section Run

variable {σ : Type} [Backend σ]

/-- Once a payload was sent and the exchange was completed or given up by the card, the host's bit is that
    of the last information block that was sent. -/
theorem sent_of_runFor (front : List (Round Exchange)) (s : Sequence) (t : Transfer) (o : Options)
    (n : Nat) (bus : σ) : let course := (start .transceive s t).runFor o n bus
    (∃ response, course.ending = .completed response) ∨ course.ending = .failed .abort →
      (sentBits (front ++ course.rounds)).getLast? = some course.last.sequence.host := by
  intro course settled
  have kept : IsKept fun past y => Speaks (front ++ past) y ∧ y.purpose = .transceive := by
    rintro past x r y ⟨speaks, transceives⟩ judges leads
    rw [← List.append_assoc]
    exact speaks.leads transceives judges leads
  have begun : Speaks (front ++ []) (start .transceive s t) := .begins rfl rfl
  rcases kept.runFor ⟨begun, rfl⟩ o n bus with
    ⟨unsettled, -⟩ | ⟨past, y, r, rounds, ⟨speaks, -⟩, judges, ends⟩
  · rw [show course.ending = .unsettled from unsettled] at settled
    simp at settled
  · rw [show course.rounds = past ++ [r] from rounds, ← List.append_assoc]
    exact speaks.ends judges ends settled

end Run

end Exchange

end CardLink
