import CardLink.Proofs.Receipts
import CardLink.Proofs.Reception
import CardLink.Proofs.Termination

/-!
# The room for a response

How much room the receiver has for a response decides how much of it is kept, and nothing else
(`prefix_of_capacity`). This is shown in two steps. An exchange whose receiver has no room at all takes
the same rounds as any other (`runFor_roomless`), so the rounds of two exchanges that differ in their room
only are the same. And what a completed exchange has written is a prefix of what its card has sent, as
much as there is room for (`gathered_of_completed`), whichever purpose it serves.
-/

namespace CardLink

/-! ## Verdicts without room -/

namespace Transfer

theorem taking_roomless (t : Transfer) (b : Block) : t.roomless.taking b = (t.taking b).roomless := by
  have room : t.roomless.room = 0 := rfl
  unfold taking
  split
  · simp only [room, List.take_zero]
    rfl
  · rfl

theorem respected_roomless : Respected fun t t' => t' = t.roomless where
  control both := by
    rw [both]
    rfl
  taking both b := by
    rw [both, taking_roomless]
  map {t _} both f apart := by
    rw [both]
    exact apart t [] 0

end Transfer

def Verdict.roomless (v : Verdict) : Verdict := { v with transfer := v.transfer.roomless }

theorem roomless_judge (t : Transfer) (s : Sequence) (reference : Block) (received : Frame) :
    judge t.roomless s reference received = (judge t s reference received).roomless := by
  obtain ⟨reaction, sequence, transfer⟩ :=
    Transfer.respected_roomless.judge (t := t) rfl s reference received
  rw [Verdict.roomless, reaction, sequence, ← transfer]

/-! ## Exchanges without room -/

def Ending.roomless : Ending → Ending
  | completed _ => completed []
  | failed e => failed e
  | unsettled => unsettled

namespace Exchange

def roomless (x : Exchange) : Exchange := { x with transfer := x.transfer.roomless }

end Exchange

def Round.roomless (r : Round Exchange) : Round Exchange :=
  { r with before := r.before.roomless, verdict := r.verdict.roomless }

namespace Exchange

variable {σ : Type} [Backend σ]

theorem roomless_start (purpose : Purpose) (s : Sequence) (payload buffer : Bytes) :
    (start purpose s (.into payload buffer)).roomless = start purpose s (.into payload []) := by
  cases purpose <;> rfl

variable (x : Exchange)

theorem roomless_restarted : x.roomless.restarted = x.restarted.roomless := by
  obtain ⟨purpose, _, _, _, _, _⟩ := x
  cases purpose <;> rfl

theorem roomless_resend : x.roomless.resend = x.resend.translate Ending.roomless roomless := by
  unfold resend
  rw [show x.roomless.transfer.resends = x.transfer.resends from rfl,
    show x.roomless.reference = x.reference from rfl]
  split
  · rfl
  split
  · rfl
  · rfl

theorem roomless_resetCard (bus : σ) : x.roomless.resetCard bus =
    ((x.resetCard bus).1.translate Ending.roomless roomless, (x.resetCard bus).2) := by
  unfold resetCard
  rw [show x.roomless.wasReset = x.wasReset from rfl]
  split
  · rfl
  · match (Backend.reset : Bus σ Unit).run bus with
    | .ok _ bus =>
      exact congrArg (fun y => (Step.going y, bus)) (roomless_restarted { x with wasReset := true })
    | .error _ bus => rfl

theorem roomless_follow (v : Verdict) (bus : σ) : x.roomless.follow v.roomless bus =
    ((x.follow v bus).1.translate Ending.roomless roomless, (x.follow v bus).2) := by
  unfold follow
  rw [show v.roomless.reaction = v.reaction from rfl,
    show x.roomless.judged v.roomless = (x.judged v).roomless from rfl]
  cases v.reaction with
  | complete => rfl
  | abort => rfl
  | hardFail => rfl
  | resetDevice => exact roomless_resetCard _ bus
  | resetSession => simp only [roomless_restarted]; rfl
  | retransmit => simp only [roomless_resend]
  | proceed next => rfl
  | interject next => rfl

/-- Without room, an exchange does the same in every round. -/
theorem translates_roomless (o : Options) : Course.Translates (σ := σ) Round.roomless Ending.roomless
    roomless (fun _ => True) (round o) (round o) where
  unsettled := rfl
  same x bus _ := by
    have verdict := roomless_judge x.transfer.waited x.sequence x.reference (x.converse o bus).1
    have converse : x.roomless.converse o bus = x.converse o bus := rfl
    simp only [round, converse, ← roomless_follow, Round.roomless, ← verdict]
    rfl
  stays _ _ := trivial

theorem runFor_roomless (o : Options) (n : Nat) (bus : σ) : x.roomless.runFor o n bus =
    (x.runFor o n bus).translate Round.roomless Ending.roomless roomless :=
  Course.upTo_translate (translates_roomless o) n trivial bus

end Exchange

/-! ## What was accepted -/

namespace Round

theorem part?_roomless (r : Round Exchange) : r.roomless.part? = r.part? := by
  have refusal := Transfer.respected_roomless.refusal? (t := r.before.transfer.waited) rfl
    r.before.sequence r.before.reference r.received
  have waited : r.roomless.before.transfer.waited = r.before.transfer.waited.roomless := rfl
  simp only [part?, waited]
  rw [show r.roomless.received = r.received from rfl,
    show r.roomless.before.sequence = r.before.sequence from rfl,
    show r.roomless.before.reference = r.before.reference from rfl, refusal]

/-- The blocks that were accepted do not depend on the room for them. -/
theorem parts_roomless (rounds : List (Round Exchange)) : parts (rounds.map roomless) = parts rounds := by
  have since : sinceRestart (rounds.map roomless) = (sinceRestart rounds).map roomless := by
    rw [sinceRestart, sinceRestart, ← List.map_reverse, List.takeWhile_map, List.map_reverse]
    rfl
  rw [parts, parts, since, List.filterMap_map]
  exact congrArg (fun part? => (sinceRestart rounds).filterMap part?) (funext part?_roomless)

end Round

/-! ## Two receivers -/

/-- Two exchanges that differ in the room for the response are told apart by nothing but the response. -/
structure Exchange.SameButResponse {σ : Type} (course course' : Course Exchange σ) : Prop where
  rounds : course.rounds.map Round.roomless = course'.rounds.map Round.roomless
  ending : course.ending.roomless = course'.ending.roomless
  sequence : course.last.sequence = course'.last.sequence
  bus : course.bus = course'.bus

namespace Exchange

variable {σ : Type} [Backend σ] {o : Options} {n : Nat} {bus : σ} {purpose : Purpose} {s : Sequence}
variable {payload small large : Bytes}

theorem sameButResponse (purpose : Purpose) (s : Sequence) (payload small large : Bytes) (o : Options)
    (n : Nat) (bus : σ) : SameButResponse ((start purpose s (.into payload small)).runFor o n bus)
      ((start purpose s (.into payload large)).runFor o n bus) := by
  -- Both are the exchange that has no room at all.
  have left := (start purpose s (.into payload small)).runFor_roomless o n bus
  have right := (start purpose s (.into payload large)).runFor_roomless o n bus
  rw [roomless_start] at left right
  have same := left.symm.trans right
  exact ⟨congrArg Course.rounds same, congrArg Course.ending same,
    congrArg (fun course => course.last.sequence) same, congrArg (fun course => course.bus) same⟩

/-- The smaller response is the start of the larger one. -/
theorem prefix_of_completed (smaller : small.length ≤ large.length) {response response' : Bytes}
    (completed : ((start purpose s (.into payload small)).runFor o n bus).ending = .completed response)
    (completed' : ((start purpose s (.into payload large)).runFor o n bus).ending = .completed response') :
    response.length = min small.length response'.length ∧
      response'.take response.length = response := by
  have same := congrArg Round.parts (sameButResponse purpose s payload small large o n bus).rounds
  rw [Round.parts_roomless, Round.parts_roomless] at same
  have content := (gathered_of_completed completed).1
  have content' := (gathered_of_completed completed').1
  rw [← same] at content'
  generalize (Round.parts _).flatMap Frame.inf = gathered at content content'
  have length : response.length = min small.length gathered.length := by rw [content, List.length_take]
  have length' : response'.length = min large.length gathered.length := by rw [content', List.length_take]
  refine ⟨by omega, ?_⟩
  rw [content', List.take_take, content, List.length_take, List.take_eq_take_iff]
  omega

/-- The response lies at the start of the buffer. -/
theorem take_buffer_of_completed {buffer response : Bytes}
    (completed : ((start purpose s (.into payload buffer)).runFor o n bus).ending = .completed response) :
    ((start purpose s (.into payload buffer)).runFor o n bus).last.transfer.buffer.take response.length =
      response := by
  have written := (gathered_of_completed completed).2
  have whole := ((start purpose s (.into payload buffer)).runFor o n bus).last.transfer.take_length_response
  rwa [written] at whole

end Exchange

/-- Two receivers with room for more and for less of the response, in exchanges that are otherwise the
    same with the same card: the card sees the same frames and polls, gives the same replies, and both end
    with the same sequence bits. Both fail in the same way, or both are completed, and then what the
    smaller buffer holds is the start of what the larger one does. -/
theorem Host.prefix_of_capacity (purpose : Purpose) (s : Sequence) (payload : Bytes) {small large : Bytes}
    (smaller : small.length ≤ large.length) (o : Options) (card : ScriptedCard) :
    let course := (start purpose s (.into payload small)).run o card
    let course' := (start purpose s (.into payload large)).run o card
    course.bus = course'.bus ∧ course.last.sequence = course'.last.sequence ∧
      ((∃ e, course.ending = .failed e ∧ course'.ending = .failed e) ∨
        ∃ response response', course.ending = .completed response ∧
          course'.ending = .completed response' ∧
          response.length = min small.length response'.length ∧
          course.last.transfer.buffer.take response.length =
            course'.last.transfer.buffer.take response.length) := by
  intro course course'
  have seen : (Exchange.start purpose s (.into payload small)).runFor o (Backend.horizon card) card =
      course.map view := Host.runFor_start ..
  have seen' : (Exchange.start purpose s (.into payload large)).runFor o (Backend.horizon card) card =
      course'.map view := Host.runFor_start ..
  have same := Exchange.sameButResponse purpose s payload small large o (Backend.horizon card) card
  have settled : course.ending ≠ .unsettled := by
    have settled := (Exchange.isRegular_start purpose s payload small).ending_ne_unsettled o card
    rwa [Exchange.run, seen] at settled
  rw [seen, seen'] at same
  refine ⟨same.bus, same.sequence, ?_⟩
  have ending : course.ending.roomless = course'.ending.roomless := same.ending
  cases left : course.ending with
  | unsettled => exact absurd left settled
  | failed e =>
    refine .inl ⟨e, rfl, ?_⟩
    rw [left] at ending
    cases right : course'.ending <;> simp_all [Ending.roomless]
  | completed response =>
    obtain ⟨response', right⟩ : ∃ response', course'.ending = .completed response' := by
      rw [left] at ending
      cases right : course'.ending <;> simp_all [Ending.roomless]
    refine .inr ⟨response, response', rfl, right, ?_⟩
    have completed := (congrArg Course.ending seen).trans left
    have completed' := (congrArg Course.ending seen').trans right
    obtain ⟨length, start⟩ := Exchange.prefix_of_completed smaller completed completed'
    have written := Exchange.take_buffer_of_completed completed
    have written' := Exchange.take_buffer_of_completed completed'
    rw [seen] at written
    rw [seen'] at written'
    refine ⟨length, ?_⟩
    calc course.last.transfer.buffer.take response.length
        = response'.take response.length := written.trans start.symm
      _ = (course'.last.transfer.buffer.take response'.length).take response.length := by
          rw [show course'.last.transfer.buffer.take _ = response' from written']
      _ = course'.last.transfer.buffer.take response.length := by
          rw [List.take_take, Nat.min_eq_left (length ▸ Nat.min_le_right ..)]

/-- Of a response of three bytes, a receiver with room for two keeps the first two. -/
theorem Host.prefix_of_capacity_restarting :
    let course := (start .transceive .fresh (.into [7] [0, 0])).run {} ScriptedCard.restarting
    let course' := (start .transceive .fresh (.into [7] [5, 5, 5, 5])).run {} ScriptedCard.restarting
    ([0, 0] : Bytes).length ≤ ([5, 5, 5, 5] : Bytes).length ∧
      course.ending = .completed [1, 2] ∧ course'.ending = .completed [1, 2, 3] ∧
      course.bus = course'.bus ∧ course.last.sequence = course'.last.sequence ∧
      ((∃ e, course.ending = .failed e ∧ course'.ending = .failed e) ∨
        ∃ response response', course.ending = .completed response ∧
          course'.ending = .completed response' ∧
          response.length = min ([0, 0] : Bytes).length response'.length ∧
          course.last.transfer.buffer.take response.length =
            course'.last.transfer.buffer.take response.length) :=
  have smaller : ([0, 0] : Bytes).length ≤ ([5, 5, 5, 5] : Bytes).length := by decide
  have kept : ((start .transceive .fresh (.into [7] [0, 0])).run {} ScriptedCard.restarting).ending =
      .completed [1, 2] := by decide +kernel
  have whole : ((start .transceive .fresh (.into [7] [5, 5, 5, 5])).run {}
      ScriptedCard.restarting).ending = .completed [1, 2, 3] := by decide +kernel
  ⟨smaller, kept, whole,
    Host.prefix_of_capacity .transceive .fresh [7] smaller {} ScriptedCard.restarting⟩

end CardLink
