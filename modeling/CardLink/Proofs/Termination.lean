import CardLink.Proofs.Patience
import CardLink.Proofs.Refinement
import CardLink.Proofs.Scripts

/-!
# Every exchange comes to an end

An exchange with a scripted card is over after at most seven rounds more than the card has replies
(`rounds_of_run`). A reply may give back all the patience that was lost, so nothing is known about the
rounds in which one is played but that there is one reply less after each. Once the card has fallen
silent, each round takes patience away, and the request for a new start is given up when none is left.

An exchange that hears nothing from its start on uses up its patience one by one, so seven rounds are
needed.
-/

namespace CardLink

namespace Exchange

variable {card card' card'' : ScriptedCard} {o : Options} {x y : Exchange} {r : Round Exchange}

/-! ## Counting rounds -/

/-- What a card shows of `n` rounds: each has used up a reply, sent a frame and polled once. -/
structure Counted (card : ScriptedCard) (n : Nat) (card' : ScriptedCard) : Prop where
  replies : card'.replies = card.replies.drop n
  heard : card'.heard.length = card.heard.length + n
  polls : card'.polls.length = card.polls.length + n

theorem Counted.tail {n : Nat} {step : Step Exchange} (counted : Counted card n card')
    (next : round o x card' = (r, step, card'')) : Counted card (n + 1) card'' := by
  simp only [round, Prod.mk.injEq] at next
  obtain ⟨rfl, goes⟩ := next
  have bus := congrArg Prod.snd goes
  obtain ⟨resets, failingResets, follows⟩ := x.follow_card
    (judge x.transfer.waited x.sequence x.reference (x.converse o card').1) (x.converse o card').2
  rw [follows] at bus
  change _ = card'' at bus
  subst bus
  -- Whatever follows from the verdict, the card was only reset after the poll.
  obtain ⟨⟨unread, readFault, busHeld, listens⟩, -⟩ := Frame.listen_card o (x.timeout o)
    (Frame.stateAfter ((Frame.send o x.outgoing.frame).run card'))
  have converses : (x.converse o card').2 = _ := listens
  refine ⟨?_, ?_, ?_⟩
  · change (x.converse o card').2.replies = _
    rw [converses, ← List.tail_drop, ← counted.replies]
    rfl
  · change (x.converse o card').2.heard.length = _
    rw [converses, ← Nat.add_assoc, ← counted.heard]
    exact List.length_append
  · change (x.converse o card').2.polls.length = _
    rw [converses, ← Nat.add_assoc, ← counted.polls]
    exact List.length_append

theorem counted_of_reaches {rounds : List (Round Exchange)}
    (reached : Reaches (round o) x card rounds y card') : Counted card rounds.length card' := by
  refine reached.invariant (P := fun rounds _ card' => Counted card rounds.length card') ⟨rfl, rfl, rfl⟩ ?_
  intro past _ r _ _ _ counted next
  rw [List.length_append]
  exact counted.tail next

theorem counted_runFor (x : Exchange) (o : Options) (n : Nat) (card : ScriptedCard) :
    Counted card (x.runFor o n card).rounds.length (x.runFor o n card).bus := by
  rcases Course.upTo_cases (round o) n x card with
    ⟨reached, -, -⟩ | ⟨past, y, card', r, rounds, -, reached, last⟩
  · exact counted_of_reaches reached
  · rw [runFor, rounds, List.length_append]
    exact (counted_of_reaches reached).tail last

/-! ## Silence -/

theorem refused_of_absent (nothing : r.received = .absent) : r.refusal? ≠ none := by
  rw [Round.refusal?, nothing]
  exact Option.some_ne_none _

/-- Once its replies are used up, nothing is received from a card. -/
theorem received_of_silent {step : Step Exchange} (silent : card.replies = [])
    (next : round o x card = (r, step, card')) : r.refusal? ≠ none ∧ card'.replies = [] := by
  have counted := Counted.tail (n := 0) ⟨rfl, rfl, rfl⟩ next
  simp only [round, Prod.mk.injEq] at next
  obtain ⟨rfl, -⟩ := next
  obtain ⟨-, nothing⟩ := Frame.listen_card o (x.timeout o)
    (Frame.stateAfter ((Frame.send o x.outgoing.frame).run card))
  refine ⟨refused_of_absent (nothing silent), ?_⟩
  rw [counted.replies, silent]
  rfl

theorem IsRegular.leads_of_silent (regular : x.IsRegular) (silent : card.replies = [])
    (next : round o x card = (r, .going y, card')) :
    y.IsRegular ∧ card'.replies = [] ∧ x.Persists y := by
  obtain ⟨judges, leads⟩ := leads_of_round next
  obtain ⟨refused, silent'⟩ := received_of_silent silent next
  exact ⟨regular.leads judges leads, silent', regular.persists_of_refused judges refused leads⟩

/-- With a silent card, an exchange is given up when its patience is at an end. -/
theorem IsRegular.runFor_of_silent (regular : x.IsRegular) (silent : card.replies = []) (o : Options)
    {n : Nat} (enough : x.patience ≤ n) :
    (x.runFor o n card).ending = .unanswered ∧ (x.transfer.resends ≤ x.transfer.errors →
      (x.runFor o n card).rounds.length = x.patience) := by
  obtain ⟨past, y, card', r, rounds, -, reached, last⟩ := Course.closed_of_measure (round o)
    (fun x (card : ScriptedCard) => x.IsRegular ∧ card.replies = [])
    (fun x _ => x.patience) (fun good => good.1.steady.patience_pos)
    (fun good next => by
      obtain ⟨regular', silent', persists⟩ := good.1.leads_of_silent good.2 next
      exact ⟨⟨regular', silent'⟩, (persists.patience_lt good.1.steady).1⟩)
    ⟨regular, silent⟩ enough
  -- How much patience is left after the rounds that led on.
  have left : (y.IsRegular ∧ card'.replies = []) ∧ (x.transfer.resends ≤ x.transfer.errors →
      y.patience + past.length = x.patience ∧ y.transfer.resends ≤ y.transfer.errors) := by
    refine reached.invariant (P := fun past y card' => (y.IsRegular ∧ card'.replies = []) ∧
      (x.transfer.resends ≤ x.transfer.errors →
        y.patience + past.length = x.patience ∧ y.transfer.resends ≤ y.transfer.errors))
      ⟨⟨regular, silent⟩, fun unheard => ⟨rfl, unheard⟩⟩ ?_
    intro past y r z card' card'' ⟨⟨regular, silent⟩, left⟩ next
    obtain ⟨regular', silent', persists⟩ := regular.leads_of_silent silent next
    refine ⟨⟨regular', silent'⟩, fun unheard => ?_⟩
    obtain ⟨patience, unheard⟩ := left unheard
    obtain ⟨one, unheard⟩ := (persists.patience_lt regular.steady).2 unheard
    refine ⟨?_, unheard⟩
    rw [List.length_append, List.length_singleton, ← patience, ← one]
    omega
  obtain ⟨⟨regular', silent'⟩, left⟩ := left
  obtain ⟨judges, ends⟩ := ends_of_round last
  obtain ⟨refused, -⟩ := received_of_silent silent' last
  obtain ⟨unanswered, sent, resends⟩ := regular'.unanswered_of_refused judges refused ends
  refine ⟨unanswered, fun unheard => ?_⟩
  obtain ⟨patience, -⟩ := left unheard
  have one : y.patience = 1 := by
    rw [Exchange.patience, if_pos sent, resends]
    rfl
  rw [runFor, rounds, List.length_append, List.length_singleton, ← patience, one]
  omega

/-! ## All replies -/

/-- So many rounds an exchange takes at most. -/
def horizon (x : Exchange) (card : ScriptedCard) : Nat :=
  if card.replies = [] then x.patience else card.replies.length + 7

theorem horizon_le (x : Exchange) (card : ScriptedCard) : x.horizon card ≤ card.replies.length + 7 := by
  have := x.patience_le
  unfold horizon
  split <;> omega

/-- Every round comes closer to the end: it uses up a reply, or some patience if there is none. -/
theorem IsRegular.horizon_lt (regular : x.IsRegular) (next : round o x card = (r, .going y, card')) :
    y.IsRegular ∧ y.horizon card' < x.horizon card := by
  by_cases silent : card.replies = []
  · obtain ⟨regular', silent', persists⟩ := regular.leads_of_silent silent next
    refine ⟨regular', ?_⟩
    rw [horizon, horizon, if_pos silent, if_pos silent']
    exact (persists.patience_lt regular.steady).1
  · obtain ⟨judges, leads⟩ := leads_of_round next
    refine ⟨regular.leads judges leads, ?_⟩
    have counted := Counted.tail (n := 0) ⟨rfl, rfl, rfl⟩ next
    have fewer : card'.replies.length < card.replies.length := by
      have some := List.length_pos_iff.mpr silent
      rw [counted.replies, List.length_drop]
      omega
    calc y.horizon card' ≤ card'.replies.length + 7 := y.horizon_le card'
      _ < card.replies.length + 7 := Nat.add_lt_add_right fewer 7
      _ = x.horizon card := by rw [horizon, if_neg silent]

theorem IsRegular.closed_run (regular : x.IsRegular) (o : Options) (card : ScriptedCard) :
    Course.Closed (round o) (card.replies.length + 7) x card (x.run o card) := by
  obtain ⟨past, y, card', r, rounds, fewer, reached, last⟩ := Course.closed_of_measure (round o)
    (fun x _ => x.IsRegular) horizon
    (fun {x card} regular => by
      have := regular.steady.patience_pos
      unfold horizon
      split <;> omega)
    (fun regular next => regular.horizon_lt next) regular
    (Nat.le_trans (x.horizon_le card) (Nat.le_succ _))
  exact ⟨past, y, card', r, rounds, Nat.lt_of_lt_of_le fewer (x.horizon_le card), reached, last⟩

/-- The last round of a run ends it. -/
theorem IsKept.run {P : List (Round Exchange) → Exchange → Prop} (kept : IsKept P) (begun : P [] x)
    (regular : x.IsRegular) (o : Options) (card : ScriptedCard) :
    ∃ past y r, (x.run o card).rounds = past ++ [r] ∧ P past y ∧ y.Judges r ∧
      y.Ends r.verdict (x.run o card).ending (x.run o card).last := by
  obtain ⟨past, y, card', r, rounds, -, reached, last⟩ := regular.closed_run o card
  obtain ⟨judges, ends⟩ := ends_of_round last
  exact ⟨past, y, r, rounds, kept.of_reaches begun reached, judges, ends⟩

theorem IsRegular.ending_ne_unsettled (regular : x.IsRegular) (o : Options) (card : ScriptedCard) :
    (x.run o card).ending ≠ .unsettled := by
  obtain ⟨_, _, _, _, -, -, -, last⟩ := regular.closed_run o card
  exact (ends_of_round last).2.ne_unsettled

end Exchange

/-- An exchange with a scripted card comes to an end after at most seven rounds more than the card has
    replies, in each of which one frame is sent and the card is polled once. With a card that has no
    reply it takes seven rounds. Wherever an exchange has got to, if the card falls silent it is given up
    within seven rounds. -/
theorem Host.rounds_of_run (purpose : Purpose) (s : Sequence) (payload buffer : Bytes) (o : Options)
    (card : ScriptedCard) :
    let host := Host.start purpose s (.into payload buffer)
    let course := host.run o card
    course.ending ≠ .unsettled ∧ course.rounds.length ≤ card.replies.length + 7 ∧
      course.bus.heard.length = card.heard.length + course.rounds.length ∧
      course.bus.polls.length = card.polls.length + course.rounds.length ∧
      (card.replies = [] → course.rounds.length = 7) ∧
      ∀ past h card', Reaches (Host.round o) host card past h card' →
        ∀ silent : ScriptedCard, silent.replies = [] → (h.runFor o 7 silent).ending = .unanswered := by
  intro host course
  let x := Exchange.start purpose s (.into payload buffer)
  have regular : x.IsRegular := Exchange.isRegular_start purpose s payload buffer
  have seen : x.run o card = course.map view := run_start purpose s (.into payload buffer) o card
  have rounds : (x.run o card).rounds.length = course.rounds.length := by
    rw [seen]
    exact List.length_map _
  have counted := x.counted_runFor o (Backend.horizon card) card
  have closed := regular.closed_run o card
  rw [show x.runFor o _ card = x.run o card from rfl, rounds, seen] at counted
  refine ⟨?_, ?_, counted.heard, counted.polls, fun silent => ?_, fun past h card' reached card'' silent => ?_⟩
  · have settled := regular.ending_ne_unsettled o card
    rwa [seen] at settled
  · rw [← rounds]
    exact Course.rounds_of_closed closed
  · have fresh : x.transfer.resends ≤ x.transfer.errors ∧ x.patience = 7 := by
      cases purpose <;> exact ⟨Nat.le_refl 0, rfl⟩
    rw [← rounds, ← fresh.2]
    refine (regular.runFor_of_silent silent o ?_).2 fresh.1
    rw [fresh.2]
    exact Nat.le_trans (Nat.le_succ 7) (Nat.le_add_left ..)
  · obtain ⟨reached, ready⟩ := Course.reaches_map (Host.simulates o) reached (Host.isReady_start ..)
    rw [Host.view_start] at reached
    have regular' : h.view.IsRegular := reached.invariant (P := fun _ y _ => y.IsRegular) regular
      fun regular next => regular.leads (Exchange.leads_of_round next).1 (Exchange.leads_of_round next).2
    have ending := (regular'.runFor_of_silent silent o h.view.patience_le).1
    rwa [Host.runFor_view ready] at ending

end CardLink
