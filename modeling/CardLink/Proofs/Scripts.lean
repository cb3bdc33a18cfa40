import CardLink.Backend.ScriptedCard
import CardLink.Proofs.Buffering
import CardLink.Proofs.Listening
import CardLink.Proofs.Refinement
import CardLink.Proofs.Rounds

/-!
# Exchanges with a scripted card

What a scripted card does in one round, if it is idle before it: it remembers the frame that was sent
and the time that is waited, and its next reply gives the frame that is heard (`Reply.heard`). Whatever
the reply is, the card is idle again after the round. `Frame.hear` also gives the reason why no frame is
read, and `receive_of_frame` says that the host is told so.

So the frames that an exchange receives are those of the script, one reply a round, and the card
remembers the blocks of all rounds (`played_runFor`). For a host it remembers the bytes that were sent, so
that its rounds can be read as a record of the bus (`Host.played_runFor`).
-/

namespace CardLink

/-- The frame that is received when a reply is played back. A reply of silence, of a fault, to another
    address or of too few bytes leaves the frame that was never received. -/
def Reply.heard (o : Options) : Reply → Frame
  | .frame (address :: pcbByte :: len :: rest) =>
    if address = o.host ∧ len ≠ 255 ∧ len.toNat < rest.length then
      o.underConvention .receive
        { Frame.absent.overwritten (rest.take (len.toNat + 1)) with nad := o.host, pcbByte, len }
    else .absent
  | _ => .absent

theorem Reply.heard_of_foreign {o : Options} {address : UInt8} (foreign : address ≠ o.host)
    (bytes : Bytes) : heard o (.frame (address :: bytes)) = .absent := by
  unfold heard
  split
  next heq => cases heq; exact if_neg fun mine => foreign mine.1
  next => rfl

/-- The frames that are received in `n` rounds. Nothing is received once the script is used up. -/
def Reply.hearings (o : Options) (replies : List Reply) (n : Nat) : List Frame :=
  (List.range n).map fun i => (replies[i]?.map (heard o)).getD .absent

theorem Reply.hearings_eq (o : Options) (replies : List Reply) (n : Nat) : hearings o replies n =
    (replies.map (heard o)).take n ++ List.replicate (n - replies.length) .absent := by
  apply List.ext_getElem
  · simp [hearings]
    omega
  · intro i within _
    simp only [hearings, List.length_map, List.length_range] at within
    by_cases scripted : i < replies.length
    · rw [List.getElem_append_left (by simp; omega)]
      simp [hearings, scripted]
    · rw [List.getElem_append_right (by simp; omega)]
      simp [hearings, scripted]

theorem Reply.sublist_of_hearings {o : Options} {replies : List Reply} {n : Nat} {frames : List Frame}
    (heard : frames.Sublist (hearings o replies n)) (present : ∀ f ∈ frames, f.isAbsent = false) :
    frames.Sublist (replies.map (Reply.heard o)) := by
  have kept : frames.filter (fun f => !f.isAbsent) = frames :=
    List.filter_eq_self.mpr fun f member => by simp [present f member]
  have nothing (k : Nat) : (List.replicate k Frame.absent).filter (fun f => !f.isAbsent) = [] :=
    List.filter_eq_nil_iff.mpr fun f member => by
      rw [List.eq_of_mem_replicate member]
      decide
  have sublist := heard.filter fun f => !f.isAbsent
  rw [kept, hearings_eq, List.filter_append, nothing, List.append_nil] at sublist
  exact (sublist.trans List.filter_sublist).trans (List.take_sublist ..)

namespace ScriptedCard

/-- Nothing is under way on the bus. -/
structure IsIdle (card : ScriptedCard) : Prop where
  unread : card.unread = none
  readFault : card.readFault = none
  pending : card.pending = []
  busHeld : card.busHeld = false

/-- No reply is being read. -/
structure IsQuiet (card : ScriptedCard) : Prop where
  unread : card.unread = none
  readFault : card.readFault = none
  busHeld : card.busHeld = false

/-- The frame that the next poll gives. -/
def next (card : ScriptedCard) (o : Options) : Frame :=
  (card.replies.head?.map (Reply.heard o)).getD .absent

def polled (card : ScriptedCard) (timeout : Duration) : ScriptedCard :=
  { card with polls := card.polls ++ [timeout], replies := card.replies.tail }

/-- The card after a frame was sent to it. -/
def hearing (card : ScriptedCard) (data : Bytes) : ScriptedCard :=
  { card with heard := card.heard ++ [data] }

/-- The card with another script to play. -/
def rescripted (card : ScriptedCard) (replies : List Reply) : ScriptedCard := { card with replies }

theorem isIdle_ofReplies (replies : List Reply) : (ofReplies replies).IsIdle :=
  ⟨rfl, rfl, rfl, rfl⟩

/-- A card that begins to respond, falls silent, agrees to start again, and then responds. -/
def restarting : ScriptedCard :=
  .ofReplies [.frame [0xA5, 0x20, 1, 9, 0x8D], .silence, .silence, .silence,
    .frame [0xA5, 0xE0, 0, 0x45], .frame [0xA5, 0x20, 2, 1, 2, 0x84], .frame [0xA5, 0x40, 1, 3, 0xE7]]

variable {card : ScriptedCard}

theorem IsIdle.polled (idle : card.IsIdle) (timeout : Duration) : (card.polled timeout).IsIdle :=
  ⟨idle.unread, idle.readFault, idle.pending, idle.busHeld⟩

theorem IsIdle.isQuiet (idle : card.IsIdle) : card.IsQuiet :=
  ⟨idle.unread, idle.readFault, idle.busHeld⟩

theorem IsQuiet.polled (quiet : card.IsQuiet) (timeout : Duration) : (card.polled timeout).IsQuiet :=
  ⟨quiet.unread, quiet.readFault, quiet.busHeld⟩

theorem IsIdle.rescripted (idle : card.IsIdle) (replies : List Reply) :
    (card.rescripted replies).IsIdle :=
  ⟨idle.unread, idle.readFault, idle.pending, idle.busHeld⟩

theorem IsIdle.hearing (idle : card.IsIdle) (data : Bytes) : (card.hearing data).IsIdle :=
  ⟨idle.unread, idle.readFault, idle.pending, idle.busHeld⟩

end ScriptedCard

/-! ## One frame -/

namespace Frame

variable {card : ScriptedCard}

/-- The frame that a reception gave, or the one that stands for none. -/
def orAbsent {σ : Type} : EStateM.Result Error σ Frame → Frame × σ
  | .ok frame bus => (frame, bus)
  | .error _ bus => (absent, bus)

theorem listen_eq {σ : Type} [Backend σ] (o : Options) (timeout : Duration) (bus : σ) :
    listen o timeout bus = orAbsent ((receive o timeout absent).run bus) := rfl

/-- How an operation ends on a bus that has this state afterwards. -/
def endingOn {σ α : Type} (bus : σ) : Except Error α → EStateM.Result Error σ α
  | .ok a => .ok a bus
  | .error e => .error e bus

/-- What a host reads of the bytes behind its address. -/
def read (o : Options) (into : Frame) : Bytes → Except Error Frame
  | pcbByte :: len :: rest =>
    if len = 255 then .error reservedLen
    else if len.toNat < rest.length then
      .ok (o.underConvention .receive (into.received o.host pcbByte len (rest.take (len.toNat + 1))))
    else .error (.invalidLength (len.toNat + 1) rest.length)
  | short => .error (.invalidLength 2 short.length)

/-- What a host reads of a reply that is polled for. -/
def hear (o : Options) (into : Frame) : Bytes → Except Error Frame
  | address :: bytes => if address = o.host then read o into bytes else .error .timeout
  | [] => .error .timeout

/-- The last read of a reply gives as much as there is left, and ends the transaction. -/
theorem guardedRead_last (quiet : card.IsQuiet) (room : Nat) (bytes : Bytes) :
    (guardedRead room true).run { card with unread := some bytes, busHeld := true } =
      .ok (.ofBytes (bytes.take room)) card := by
  obtain ⟨settings, replies, heard, polls, resets, hasReset, failing, opened, _, pending, _, _⟩ := card
  obtain ⟨rfl, rfl, rfl⟩ := quiet
  rfl

theorem releaseAndThrow_of_unread (quiet : card.IsQuiet) (failure : Error) (bytes : Bytes) :
    (releaseAndThrow failure : Bus ScriptedCard Frame).run
      { card with unread := some bytes, busHeld := true } = .error failure card := by
  obtain ⟨settings, replies, heard, polls, resets, hasReset, failing, opened, _, pending, _, _⟩ := card
  obtain ⟨rfl, rfl, rfl⟩ := quiet
  rfl

/-- However much there is to read, the bus is released in the end. -/
theorem receiveRest_of_unread (quiet : card.IsQuiet) (o : Options) (into : Frame) (bytes : Bytes) :
    (receiveRest o into).run { card with unread := some bytes, busHeld := true } =
      endingOn card (read o into bytes) := by
  match bytes with
  | [] | [_] =>
    -- With the fields of the card apart, reading computes.
    obtain ⟨settings, replies, heard, polls, resets, hasReset, failing, opened, _, pending, _, _⟩ := card
    obtain ⟨rfl, rfl, rfl⟩ := quiet
    rfl
  | pcbByte :: len :: rest =>
    have header : (guardedRead 2 false).run
        { card with unread := some (pcbByte :: len :: rest), busHeld := true } =
          .ok (.ofBytes [pcbByte, len]) { card with unread := some rest, busHeld := true } := by
      simp only [EStateM.run, guardedRead, Backend.receive, ScriptedCard.receive, quiet.readFault]
      rfl
    rw [receiveRest, EStateM.run_bind, header, read]
    change ((if len = 255 then _ else receiveBody o into pcbByte len : Bus ScriptedCard Frame).run _) = _
    by_cases reserved : len = 255
    · rw [if_pos reserved, if_pos reserved]
      exact releaseAndThrow_of_unread quiet reservedLen rest
    · rw [if_neg reserved, if_neg reserved, receiveBody, EStateM.run_bind, guardedRead_last quiet]
      by_cases enough : len.toNat < rest.length
      · have whole : (rest.take (len.toNat + 1)).length = len.toNat + 1 := by
          simp only [List.length_take]
          omega
        simp only [Reading.ofBytes, if_pos whole, if_pos enough, List.take_take, Nat.min_self]
        rfl
      · have all : rest.take (len.toNat + 1) = rest := List.take_of_length_le (by omega)
        have short : rest.length ≠ len.toNat + 1 := by omega
        simp only [Reading.ofBytes, all, if_neg short, if_neg enough]
        rfl

/-- Whatever a reply holds, a poll uses it up, and the card is quiet again. -/
theorem receive_of_frame (quiet : card.IsQuiet) {w : Bytes} {later : List Reply}
    (next : card.replies = .frame w :: later) (o : Options) (timeout : Duration) (into : Frame) :
    (receive o timeout into).run card = endingOn (card.polled timeout) (hear o into w) := by
  have polled := quiet.polled timeout
  obtain ⟨settings, replies, heard, polls, resets, hasReset, failing, opened, _, pending, _, _⟩ := card
  obtain ⟨rfl, rfl, rfl⟩ := quiet
  obtain rfl : replies = _ := next
  match w with
  | [] => rfl
  | address :: bytes =>
    rw [receive, EStateM.run_bind]
    simp only [EStateM.run, Backend.poll, ScriptedCard.poll, ScriptedCard.answerPoll]
    by_cases mine : address = o.host
    · rw [if_pos mine, hear, if_pos mine]
      exact receiveRest_of_unread polled o into bytes
    · rw [if_neg mine, hear, if_neg mine]
      rfl

theorem orAbsent_hear (o : Options) (w : Bytes) (bus : ScriptedCard) :
    orAbsent (endingOn bus (hear o absent w)) = (Reply.heard o (.frame w), bus) := by
  match w with
  | [] => rfl
  | [address] | [address, _] => by_cases mine : address = o.host <;> simp only [hear, mine] <;> rfl
  | address :: pcbByte :: len :: rest =>
    by_cases mine : address = o.host
    · by_cases reserved : len = 255
      · simp [hear, read, Reply.heard, mine, reserved, endingOn, orAbsent]
      · by_cases enough : len.toNat < rest.length <;>
          simp [hear, read, received, Reply.heard, mine, reserved, enough, endingOn, orAbsent]
    · simp [hear, Reply.heard, mine, endingOn, orAbsent]

theorem listen_of_isIdle (idle : card.IsIdle) (o : Options) (timeout : Duration) :
    listen o timeout card = (card.next o, card.polled timeout) := by
  have quiet := idle.isQuiet
  obtain ⟨settings, replies, heard, polls, resets, hasReset, failing, opened, _, _, _, _⟩ := card
  obtain ⟨rfl, rfl, rfl, rfl⟩ := idle
  match replies with
  | [] => rfl
  | .silence :: _ => rfl
  | .fault _ :: _ => rfl
  | .readFault _ :: _ => rfl
  | .frame w :: later =>
    rw [listen_eq, receive_of_frame quiet rfl]
    exact orAbsent_hear ..

theorem send_of_isIdle (idle : card.IsIdle) (o : Options) (f : Frame) :
    stateAfter ((send o f).run card) = card.hearing (o.outbound f).bytes := by
  change { card with heard := card.heard ++ [card.pending ++ (o.outbound f).bytes], pending := [] } = _
  rw [idle.pending, List.nil_append, ← idle.pending]
  rfl

theorem converse_of_isIdle (idle : card.IsIdle) (o : Options) (timeout : Duration) (f : Frame) :
    converse o timeout f card = (card.next o, (card.hearing (o.outbound f).bytes).polled timeout) := by
  rw [converse, send_of_isIdle idle, listen_of_isIdle (idle.hearing _)]
  rfl

end Frame

/-! ## Any card -/

/-- Nothing has changed in a card but what it is about to send. -/
def ScriptedCard.SameRecord (card card' : ScriptedCard) : Prop :=
  ∃ unread readFault busHeld, card' = { card with unread, readFault, busHeld }

theorem ScriptedCard.SameRecord.refl (card : ScriptedCard) : card.SameRecord card := ⟨_, _, _, rfl⟩

theorem ScriptedCard.SameRecord.trans {card card' card'' : ScriptedCard} (first : card.SameRecord card')
    (second : card'.SameRecord card'') : card.SameRecord card'' := by
  obtain ⟨_, _, _, rfl⟩ := first
  obtain ⟨_, _, _, rfl⟩ := second
  exact ⟨_, _, _, rfl⟩

namespace Frame

/-- An operation that does nothing to a card but read from it. -/
def OnlyReads {α : Type} (operation : Bus ScriptedCard α) : Prop :=
  ∀ card : ScriptedCard, card.SameRecord (stateAfter (operation.run card))

theorem onlyReads_receive (room : Nat) (complete : Bool) :
    OnlyReads (Backend.receive room complete : Bus ScriptedCard Reading) := by
  intro card
  simp only [EStateM.run, Backend.receive, ScriptedCard.receive]
  split
  · exact ⟨_, _, _, rfl⟩
  · cases complete <;> exact ⟨_, _, _, rfl⟩

theorem isReading_sameRecord : IsReading ScriptedCard.SameRecord where
  refl := .refl
  trans := .trans
  receive := onlyReads_receive

theorem onlyReads_receiveRest (o : Options) (f : Frame) :
    OnlyReads (receiveRest o f : Bus ScriptedCard Frame) := isReading_sameRecord.receiveRest o f

/-- Whatever a card was doing before, a reception polls it once and uses up one reply. -/
theorem listen_card (o : Options) (timeout : Duration) (card : ScriptedCard) :
    (card.polled timeout).SameRecord (listen o timeout card).2 ∧
      (card.replies = [] → (listen o timeout card).1 = absent) := by
  have matched {polled card' : ScriptedCard} (polls : polled.SameRecord card') :
      polled.SameRecord (orAbsent ((receiveRest o absent).run card')).2 := by
    have reads := polls.trans (onlyReads_receiveRest o absent card')
    cases result : (receiveRest o absent).run card' <;> rwa [result] at reads
  obtain ⟨settings, replies, heard, polls, resets, hasReset, failing, opened, held, pending, unread,
    fault⟩ := card
  match replies with
  | [] => exact ⟨.refl _, fun _ => rfl⟩
  | .silence :: _ => exact ⟨.refl _, nofun⟩
  | .fault _ :: _ => exact ⟨.refl _, nofun⟩
  | .readFault _ :: _ =>
    refine ⟨?_, nofun⟩
    rw [listen_eq, receive, EStateM.run_bind]
    exact matched ⟨_, _, _, rfl⟩
  | .frame [] :: _ => exact ⟨.refl _, nofun⟩
  | .frame (address :: bytes) :: _ =>
    refine ⟨?_, nofun⟩
    rw [listen_eq, receive, EStateM.run_bind]
    simp only [EStateM.run, Backend.poll, ScriptedCard.poll, ScriptedCard.answerPoll]
    by_cases mine : address = o.host
    · rw [if_pos mine]
      exact matched ⟨_, _, _, rfl⟩
    · rw [if_neg mine]
      exact .refl _

end Frame

/-! ## Whole exchanges -/

namespace Exchange

variable {card card' : ScriptedCard} {o : Options} {x : Exchange}

theorem converse_of_isIdle (idle : card.IsIdle) (o : Options) (x : Exchange) : x.converse o card =
    (card.next o, (card.hearing (o.wire x.outgoing)).polled (x.timeout o)) := by
  rw [converse, Frame.converse_of_isIdle idle, o.bytes_outbound (Frame.isCanonical_frame _),
    Frame.block_frame]

theorem round_of_judge (idle : card.IsIdle) {v : Verdict}
    (verdict : judge x.transfer.waited x.sequence x.reference (card.next o) = v) : round o x card =
      (⟨x, card.next o, v⟩, x.follow v ((card.hearing (o.wire x.outgoing)).polled (x.timeout o))) := by
  simp only [round, converse_of_isIdle idle, verdict]

theorem follow_card (x : Exchange) (v : Verdict) (card : ScriptedCard) : ∃ resets failingResets,
    (x.follow v card).2 = { card with resets, failingResets } := by
  have unchanged : ∃ resets failingResets, card = { card with resets, failingResets } :=
    ⟨card.resets, card.failingResets, rfl⟩
  rcases x.follow_bus_cases v card with same | ⟨-, reset⟩
  · rw [same]
    exact unchanged
  · rw [reset]
    simp only [EStateM.run, Backend.reset, ScriptedCard.reset]
    by_cases line : card.hasReset = true
    · rw [if_pos line]
      match card.failingResets with
      | failures + 1 => exact ⟨card.resets, failures, rfl⟩
      | 0 => exact ⟨card.resets + 1, 0, rfl⟩
    · rw [if_neg line]
      exact unchanged

/-- What a card has seen in some rounds, and what was heard from it. -/
structure Played (o : Options) (card : ScriptedCard) (rounds : List (Round Exchange))
    (card' : ScriptedCard) : Prop where
  idle : card'.IsIdle
  replies : card'.replies = card.replies.drop rounds.length
  received : rounds.map Round.received = Reply.hearings o card.replies rounds.length
  heard : card'.heard = card.heard ++ rounds.map fun r => o.wire r.before.outgoing
  polls : card'.polls = card.polls ++ rounds.map fun r => r.before.timeout o

theorem Played.refl (idle : card.IsIdle) : Played o card [] card :=
  ⟨idle, rfl, rfl, (List.append_nil _).symm, (List.append_nil _).symm⟩

theorem Played.tail {rounds : List (Round Exchange)} {r : Round Exchange} {step : Step Exchange}
    {card'' : ScriptedCard} (played : Played o card rounds card')
    (next : round o x card' = (r, step, card'')) : Played o card (rounds ++ [r]) card'' := by
  simp only [round, converse_of_isIdle played.idle, Prod.mk.injEq] at next
  obtain ⟨rfl, goes⟩ := next
  have bus := congrArg Prod.snd goes
  obtain ⟨resets, failingResets, follows⟩ := x.follow_card
    (judge x.transfer.waited x.sequence x.reference (card'.next o))
    ((card'.hearing (o.wire x.outgoing)).polled (x.timeout o))
  rw [follows] at bus
  subst bus
  -- Whatever follows from the verdict, the card was only reset after the poll.
  have idle := (played.idle.hearing (o.wire x.outgoing)).polled (x.timeout o)
  refine ⟨⟨idle.unread, idle.readFault, idle.pending, idle.busHeld⟩, ?_, ?_, ?_, ?_⟩
  · change card'.replies.tail = _
    rw [played.replies, List.tail_drop, List.length_append, List.length_singleton]
  · have now : card'.next o = (card.replies[rounds.length]?.map (Reply.heard o)).getD .absent := by
      rw [ScriptedCard.next, played.replies, List.head?_drop]
    rw [List.map_append, played.received, List.length_append, List.length_singleton, Reply.hearings,
      Reply.hearings, List.range_succ, List.map_append]
    simp only [List.map_cons, List.map_nil, now]
  · change card'.heard ++ [_] = _
    rw [played.heard, List.map_append, List.append_assoc]
    rfl
  · change card'.polls ++ [_] = _
    rw [played.polls, List.map_append, List.append_assoc]
    rfl

theorem played_of_reaches {rounds : List (Round Exchange)} {y : Exchange} (idle : card.IsIdle)
    (reached : Reaches (round o) x card rounds y card') : Played o card rounds card' :=
  reached.invariant (P := fun rounds _ card' => Played o card rounds card') (.refl idle)
    fun played next => played.tail next

/-- An exchange plays one reply a round. -/
theorem played_runFor (idle : card.IsIdle) (x : Exchange) (o : Options) (n : Nat) :
    Played o card (x.runFor o n card).rounds (x.runFor o n card).bus := by
  rcases Course.upTo_cases (round o) n x card with
    ⟨reached, -, -⟩ | ⟨past, y, card', r, rounds, -, reached, last⟩
  · exact played_of_reaches idle reached
  · have played := (played_of_reaches idle reached).tail last
    rw [runFor, rounds]
    exact played

/-! ## Changing what is left of a script -/

/-- What a card is going to say and what it has seen have no influence on what follows from a verdict. -/
theorem follow_rewritten (x : Exchange) (v : Verdict) (card : ScriptedCard) (replies : List Reply)
    (heard : List Bytes) (polls : List Duration) : x.follow v { card with replies, heard, polls } =
      ((x.follow v card).1, { (x.follow v card).2 with replies, heard, polls }) := by
  unfold follow
  cases v.reaction with
  | resetDevice =>
    obtain ⟨settings, script, _, _, resets, hasReset, failing, opened, _, _, _, _⟩ := card
    simp only [resetCard]
    split
    · rfl
    · cases hasReset <;> cases failing <;> rfl
  | _ => rfl

theorem follow_rescripted (x : Exchange) (v : Verdict) (card : ScriptedCard) (replies : List Reply) :
    x.follow v (card.rescripted replies) =
      ((x.follow v card).1, (x.follow v card).2.rescripted replies) := by
  have rewritten := x.follow_rewritten v card replies card.heard card.polls
  obtain ⟨resets, failingResets, follows⟩ := x.follow_card v card
  rw [follows] at rewritten ⊢
  exact rewritten

/-- A round takes notice of the next reply only. -/
theorem round_rescripted (idle : card.IsIdle) (x : Exchange) (o : Options) {replies : List Reply}
    (same : replies.head? = card.replies.head?) : round o x (card.rescripted replies) =
      ((round o x card).1, (round o x card).2.1, (round o x card).2.2.rescripted replies.tail) := by
  have next : (card.rescripted replies).next o = card.next o := congrArg
    (fun reply? => (Option.map (Reply.heard o) reply?).getD .absent) same
  simp only [round, converse_of_isIdle idle, converse_of_isIdle (idle.rescripted replies), next]
  exact congrArg (Prod.mk _) (x.follow_rescripted
    (judge x.transfer.waited x.sequence x.reference (card.next o))
    ((card.hearing (o.wire x.outgoing)).polled (x.timeout o)) replies.tail)

/-- What is left of a script has no influence on the rounds before it is played. -/
theorem reaches_rescripted {rounds : List (Round Exchange)} {y : Exchange} {played rest : List Reply}
    (idle : card.IsIdle) (script : card.replies = played ++ rest)
    (reached : Reaches (round o) x card rounds y card') (few : rounds.length ≤ played.length)
    (rest' : List Reply) : Reaches (round o) x (card.rescripted (played ++ rest')) rounds y
      (card'.rescripted (played.drop rounds.length ++ rest')) := by
  induction reached with
  | refl => exact .refl
  | @tail past r y z card' card'' reached next ih =>
    rw [List.length_append, List.length_singleton] at few ⊢
    have played' := played_of_reaches idle reached
    have left : card'.replies = played.drop past.length ++ rest := by
      rw [played'.replies, script, List.drop_append_of_le_length (Nat.le_of_succ_le few)]
    -- The next reply is one of those that stay.
    obtain ⟨reply, more, now⟩ := List.exists_cons_of_length_pos (l := played.drop past.length) (by
      rw [List.length_drop]
      omega)
    have same : (played.drop past.length ++ rest').head? = card'.replies.head? := by
      rw [left, now]
      rfl
    have round' := round_rescripted played'.idle y o same
    rw [next] at round'
    have tail : (played.drop past.length ++ rest').tail = played.drop (past.length + 1) ++ rest' := by
      rw [← List.drop_drop, now]
      rfl
    rw [tail] at round'
    exact .tail (ih (Nat.le_of_succ_le few)) round'

end Exchange

/-! ## What the rounds of a host stand for -/

namespace Host

variable {card : ScriptedCard} (idle : card.IsIdle) (purpose : Purpose) (s : Sequence) (t : Transfer)
  (o : Options) (n : Nat)
include idle

theorem played_start : let course := (start purpose s t).runFor o n card
    Exchange.Played o card (course.rounds.map (Round.map view)) course.bus := by
  have played := Exchange.played_runFor idle (.start purpose s t) o n
  rw [runFor_start] at played
  exact played

/-- Whatever is said of the rounds of a host is said of the bus. In each round a card that was idle has heard the
    bytes of the frame and was polled once, and what the host has received is what the next reply is read as. -/
theorem played_runFor : let course := (start purpose s t).runFor o n card
    course.bus.heard = card.heard ++ course.rounds.map (fun r => (o.outbound r.before.outgoing).bytes) ∧
      course.bus.polls = card.polls ++ course.rounds.map (fun r => r.before.timeout o) ∧
      course.rounds.map Round.received = Reply.hearings o card.replies course.rounds.length ∧
      course.bus.replies = card.replies.drop course.rounds.length := by
  intro course
  obtain ⟨-, replies, received, heard, polls⟩ := played_start idle purpose s t o n
  rw [List.length_map] at replies received
  rw [List.map_map] at received heard polls
  have sent (r : Round Host) (member : r ∈ course.rounds) :
      o.wire r.before.view.outgoing = (o.outbound r.before.outgoing).bytes :=
    (bytes_outbound_of_outgoing (isReady_of_mem_rounds (isReady_start ..) member) rfl).symm
  rw [← List.map_congr_left sent]
  exact ⟨heard, polls, received, replies⟩

end Host

end CardLink
