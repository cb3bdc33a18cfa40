import CardLink.Proofs.Patience
import CardLink.Proofs.Refinement
import CardLink.Proofs.Scripts

/-!
# A refused frame is as good as none

If a reply is refused for anything but its check, a card that had been silent in its place would have
seen and caused the same (`silence_of_refused`): the same frames are sent, the same times are waited,
and the exchange ends in the same way with the same response.

One trace is left by a refused frame. If it is sound, it shows that the host's last block arrived, and
the host's sequence bit moves on; silence shows nothing. So the two exchanges go on with different bits
of the host (`SameButHost`). No round looks at that bit: the blocks of a chain take their bits from the
acknowledgements, and a new start sets the bit back.
-/

namespace CardLink

/-! ## Exchanges with different bits of the host -/

def Sequence.withHost (s : Sequence) (host : Bool) : Sequence := { s with host }

def Verdict.withHost (v : Verdict) (host : Bool) : Verdict :=
  { v with sequence := v.sequence.withHost host }

def Exchange.withHost (x : Exchange) (host : Bool) : Exchange :=
  { x with sequence := x.sequence.withHost host }

/-- Two exchanges differ in nothing but the bit that the host used last. -/
def Exchange.SameButHost (x y : Exchange) : Prop := ∃ host, y = x.withHost host

namespace Sequence

/-- What is wrong with a frame does not depend on the bit of the host. -/
theorem fault?_withHost (s : Sequence) (host : Bool) (received : Frame) :
    (s.withHost host).fault? received = s.fault? received := rfl

theorem noticed_eq_withHost (s : Sequence) (sent : Pcb) (received : Frame) :
    s.noticed sent received = s.withHost (s.noticed sent received).host := by
  rw [withHost, ← s.card_noticed sent received]

theorem after_withHost (s : Sequence) (host : Bool) (sent : Pcb) (received : Frame) :
    ∃ host', (s.withHost host).after sent received = (s.after sent received).withHost host' := by
  have wellFormed : (s.withHost host).isWellFormed received = s.isWellFormed received := rfl
  unfold after
  rw [wellFormed]
  split
  · exact ⟨host, rfl⟩
  -- A sound frame moves the bit of the host, and perhaps that of the card.
  split
  · cases sent <;> cases received.pcb <;> exact ⟨_, rfl⟩
  · cases sent <;> exact ⟨_, rfl⟩

end Sequence

theorem judge_withHost (t : Transfer) (s : Sequence) (host : Bool) (reference : Block)
    (received : Frame) : ∃ host', judge t (s.withHost host) reference received =
      (judge t s reference received).withHost host' := by
  obtain ⟨host', after⟩ := s.after_withHost host reference.pcb received
  refine ⟨host', ?_⟩
  unfold judge
  rw [s.fault?_withHost, after]
  cases s.fault? received with
  | some fault => rfl
  | none => cases t.answer? reference (.block received.block) <;> rfl

/-- The verdict on a frame that is refused for something else than its check is that on silence. -/
theorem judge_of_refused {t : Transfer} {s : Sequence} {reference : Block} {received : Frame}
    (refused : t.refusal? s reference received = some .other) :
    ∃ host, judge t s reference received = (judge t s reference .absent).withHost host := by
  have silence : t.refusal? s reference .absent = some .other := rfl
  refine ⟨(s.noticed reference.pcb received).host, ?_⟩
  rw [judge_of_refusal refused, judge_of_refusal silence, s.noticed_eq_withHost]
  rfl

namespace Exchange

theorem SameButHost.refl (x : Exchange) : x.SameButHost x := ⟨x.sequence.host, rfl⟩

section Rounds

variable {σ : Type} [Backend σ]

theorem resend_withHost (x : Exchange) (host : Bool) :
    Step.Alike SameButHost x.resend (x.withHost host).resend := by
  have transfer : (x.withHost host).transfer = x.transfer := rfl
  have reference : (x.withHost host).reference = x.reference := rfl
  unfold resend
  rw [transfer, reference]
  split
  · exact .going ⟨host, rfl⟩
  split
  · exact .ended _ ⟨host, rfl⟩
  · exact .going ⟨host, rfl⟩

/-- The exchange is begun anew with fresh bits, if the card can be reset. -/
theorem resetCard_withHost (x : Exchange) (host : Bool) (bus : σ) :
    Step.Alike SameButHost (x.resetCard bus).1 ((x.withHost host).resetCard bus).1 ∧
      (x.resetCard bus).2 = ((x.withHost host).resetCard bus).2 := by
  have wasReset : (x.withHost host).wasReset = x.wasReset := rfl
  unfold resetCard
  rw [wasReset]
  split
  · exact ⟨.ended _ ⟨host, rfl⟩, rfl⟩
  · cases (Backend.reset : Bus σ Unit).run bus with
    | ok _ bus => exact ⟨.going (.refl _), rfl⟩
    | error _ bus => exact ⟨.ended _ ⟨host, rfl⟩, rfl⟩

/-- An exchange goes on in the same way whatever the bit of the host is. -/
theorem follow_withHost (x : Exchange) (host : Bool) (v : Verdict) (host' : Bool) (bus : σ) :
    Step.Alike SameButHost (x.follow v bus).1 ((x.withHost host).follow (v.withHost host') bus).1 ∧
      (x.follow v bus).2 = ((x.withHost host).follow (v.withHost host') bus).2 := by
  obtain ⟨reaction, t, s⟩ := v
  cases reaction with
  | complete => exact ⟨.ended _ ⟨host', rfl⟩, rfl⟩
  | abort => exact ⟨.ended _ ⟨host', rfl⟩, rfl⟩
  | hardFail => exact ⟨.ended _ ⟨host', rfl⟩, rfl⟩
  | resetDevice => exact resetCard_withHost (x.judged ⟨.resetDevice, t, s⟩) host' bus
  | resetSession => exact ⟨.going (.refl _), rfl⟩
  | retransmit => exact ⟨resend_withHost (x.judged ⟨.retransmit, t, s⟩) host', rfl⟩
  | proceed next => exact ⟨.going ⟨host', rfl⟩, rfl⟩
  | interject next => exact ⟨.going ⟨host', rfl⟩, rfl⟩

theorem ignores_host (o : Options) : Course.Ignores (σ := σ) SameButHost (fun _ => True)
    (fun r => r.verdict.reaction) (round o) where
  shows := by
    rintro x _ bus - - ⟨host, rfl⟩
    obtain ⟨host', verdict⟩ := judge_withHost x.transfer.waited x.sequence host x.reference
      (x.converse o bus).1
    have same := congrArg Verdict.reaction verdict
    exact same.symm
  step := by
    rintro x _ bus - - ⟨host, rfl⟩
    obtain ⟨host', verdict⟩ := judge_withHost x.transfer.waited x.sequence host x.reference
      (x.converse o bus).1
    have follows := x.follow_withHost host (judge x.transfer.waited x.sequence x.reference
      (x.converse o bus).1) host' (x.converse o bus).2
    rw [← verdict] at follows
    exact follows
  stays := fun _ _ => trivial

end Rounds

/-! ## Silence in place of a reply -/

variable {card : ScriptedCard} {o : Options} {x : Exchange}

/-- From a reply that is refused on, an exchange goes on as if nothing had been received. -/
theorem alike_of_refused (idle : card.IsIdle) {reply : Reply} {rest : List Reply}
    (script : card.replies = reply :: rest)
    (refused : x.transfer.waited.refusal? x.sequence x.reference (card.next o) = some .other)
    (n : Nat) : Course.Alike SameButHost (fun r => r.verdict.reaction)
      ((x.runFor o (n + 1) (card.rescripted (.silence :: rest)))) (x.runFor o (n + 1) card) := by
  obtain ⟨host, verdict⟩ := judge_of_refused refused
  have converses : x.converse o card =
      (card.next o, (card.hearing (o.wire x.outgoing)).polled (x.timeout o)) :=
    converse_of_isIdle idle o x
  have converses' : x.converse o (card.rescripted (.silence :: rest)) =
      (.absent, (card.hearing (o.wire x.outgoing)).polled (x.timeout o)) := by
    rw [converse_of_isIdle (idle.rescripted _) o x]
    simp only [ScriptedCard.polled, ScriptedCard.hearing, ScriptedCard.rescripted, script]
    rfl
  have follows := x.follow_withHost x.sequence.host
    (judge x.transfer.waited x.sequence x.reference .absent) host
    ((card.hearing (o.wire x.outgoing)).polled (x.timeout o))
  rw [← verdict] at follows
  refine Course.upTo_alike_of_first (ignores_host o)
    (fun bus left right both => Course.upTo_alike (ignores_host o) n left right both bus) trivial
    trivial ?_ ?_ ?_
  · simp only [round, converses, converses', verdict]
    rfl
  · simp only [round, converses, converses']
    exact follows.1
  · simp only [round, converses, converses']
    exact follows.2

/-- Where an exchange has got to when it comes to the rest of a script. -/
theorem exists_reaches_of_taken (idle : card.IsIdle) {before rest : List Reply}
    (script : card.replies = before ++ rest) {n : Nat} {r : Round Exchange}
    (taken : (x.runFor o n card).rounds[before.length]? = some r) :
    ∃ past y card' k, Reaches (round o) x card past y card' ∧ past.length = before.length ∧
      (round o y card').1 = r ∧ n = past.length + (k + 1) ∧ card'.IsIdle ∧ card'.replies = rest := by
  obtain ⟨within, now⟩ := List.getElem?_eq_some_iff.mp taken
  have split := (List.take_append_drop before.length (x.runFor o n card).rounds).symm
  rw [List.drop_eq_getElem_cons within, now] at split
  obtain ⟨y, card', reached, record⟩ := Course.exists_reaches_of_split split
  have length := List.length_take_of_le (Nat.le_of_lt within)
  generalize (x.runFor o n card).rounds.take before.length = past at reached length
  have played := played_of_reaches idle reached
  have few := Course.length_rounds_le (round o) n x card
  refine ⟨past, y, card', n - past.length - 1, reached, length, record, ?_, played.idle, ?_⟩
  · rw [runFor] at within
    omega
  · rw [played.replies, script, length, List.drop_left]

/-- Wherever a refused reply stands in a script, silence could stand in its place. -/
theorem alike_of_silenced (idle : card.IsIdle) {before rest : List Reply} {reply : Reply}
    (script : card.replies = before ++ reply :: rest) {n : Nat} {r : Round Exchange}
    (taken : (x.runFor o n card).rounds[before.length]? = some r)
    (refused : r.refusal? = some .other) :
    let silenced := x.runFor o n (card.rescripted (before ++ .silence :: rest))
    silenced.ending = (x.runFor o n card).ending ∧ silenced.bus = (x.runFor o n card).bus ∧
      SameButHost silenced.last (x.runFor o n card).last := by
  obtain ⟨past, y, card', k, reached, length, rfl, rfl, idle', left⟩ :=
    exists_reaches_of_taken idle script taken
  -- The rounds before the reply is played are the same with both scripts.
  have reached' := reaches_rescripted idle script reached (Nat.le_of_eq length) (.silence :: rest)
  rw [length, List.drop_length, List.nil_append] at reached'
  have refusal : y.transfer.waited.refusal? y.sequence y.reference (card'.next o) = some .other := by
    rw [Round.refusal?] at refused
    simp only [round, converse_of_isIdle idle'] at refused
    exact refused
  have alike := alike_of_refused idle' left refusal k
  simp only [runFor, Course.upTo_of_reaches reached, Course.upTo_of_reaches reached']
  exact ⟨alike.ending, alike.bus, alike.last⟩

end Exchange

/-! ## Exchanges of a host -/

/-- If the frame of a round is refused for something else than its check, a card that had been silent in
    that round would have made no difference: it sees the same frames and timeouts, and the exchange ends
    in the same way, with the same response received and the same bit of the card. The bit of the host
    may be another one. -/
theorem Host.silence_of_refused {card : ScriptedCard} (idle : card.IsIdle) (purpose : Purpose)
    (s : Sequence) (t : Transfer) (o : Options) {i : Nat} {r : Round Host}
    (taken : ((start purpose s t).run o card).rounds[i]? = some r)
    (refused : (r.map view).refusal? = some .other) :
    let course := (start purpose s t).run o card
    let silenced := (start purpose s t).run o (card.rescripted (card.replies.set i .silence))
    silenced.bus = course.bus ∧ silenced.ending = course.ending ∧
      silenced.last.transfer = course.last.transfer ∧
      silenced.last.sequence.card = course.last.sequence.card := by
  intro course silenced
  by_cases scripted : i < card.replies.length
  · have script := (List.take_append_drop i card.replies).symm
    rw [List.drop_eq_getElem_cons scripted] at script
    have length := List.length_take_of_le (Nat.le_of_lt scripted)
    have silence : card.replies.take i ++ .silence :: card.replies.drop (i + 1) =
        card.replies.set i .silence := by
      rw [List.set_eq_take_append_cons_drop, if_pos scripted]
    have horizon : Backend.horizon (card.rescripted (card.replies.set i .silence)) =
        Backend.horizon card := congrArg (· + 8) (List.length_set ..)
    have seen : (Exchange.start purpose s t).runFor o (Backend.horizon card) card =
        course.map view := run_start ..
    have seen' : (Exchange.start purpose s t).runFor o (Backend.horizon card)
        (card.rescripted (card.replies.set i .silence)) = silenced.map view := by
      rw [← horizon]
      exact run_start ..
    have viewed : ((Exchange.start purpose s t).runFor o (Backend.horizon card) card).rounds[
        (card.replies.take i).length]? = some (r.map view) := by
      rw [length]
      exact taken_run_start taken
    obtain ⟨ending, bus, host, last⟩ := Exchange.alike_of_silenced idle script viewed refused
    rw [silence, seen', seen] at ending bus last
    exact ⟨bus, ending, (congrArg Exchange.transfer last).symm,
      (congrArg (fun x => x.sequence.card) last).symm⟩
  -- There was silence anyway.
  · have same : card.rescripted (card.replies.set i .silence) = card := by
      rw [List.set_eq_of_length_le (Nat.le_of_not_lt scripted)]
      rfl
    simp only [silenced, course, same, and_self]

/-- A sound block that repeats the bit of the card shows the host that its own block has arrived.
    Silence in its place does not, and makes no other difference. -/
theorem Host.silence_of_replayed :
    let card := ScriptedCard.ofReplies [.frame [0xA5, 0x40, 0, 0xE5]]
    let course := (start .transceive ⟨false, true⟩ (.into [7] [0, 0])).run {} card
    let silenced := (start .transceive ⟨false, true⟩ (.into [7] [0, 0])).run {}
      (card.rescripted (card.replies.set 0 .silence))
    card.IsIdle ∧ (∃ r, course.rounds[0]? = some r ∧ (r.map view).refusal? = some .other) ∧
      course.last.sequence.host = true ∧ silenced.last.sequence.host = false ∧
      silenced.bus = course.bus ∧ silenced.ending = course.ending ∧
      silenced.last.transfer = course.last.transfer ∧
      silenced.last.sequence.card = course.last.sequence.card := by
  intro card
  have idle : card.IsIdle := ScriptedCard.isIdle_ofReplies _
  have refusal : ((start .transceive ⟨false, true⟩ (.into [7] [0, 0])).run {} card).rounds[0]?.map
      (fun r => (r.map view).refusal?) = some (some .other) := by decide +kernel
  obtain ⟨r, taken, refused⟩ := Option.map_eq_some_iff.mp refusal
  exact ⟨idle, ⟨r, taken, refused⟩, by decide +kernel, by decide +kernel,
    Host.silence_of_refused idle .transceive ⟨false, true⟩ (.into [7] [0, 0]) {} taken refused⟩

end CardLink
