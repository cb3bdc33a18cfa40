import CardLink.Proofs.Alternation
import CardLink.Proofs.Patience
import CardLink.Proofs.Refinement
import CardLink.Session

/-!
# Sequence bits over a session

In a session, exchanges of all kinds follow each other, and some of them fail. Whatever the card replies,
the sequence bits of the session are always those of the last blocks since the last new start
(`inSequence_of_connect`). So they can be carried over from one exchange to the next: after a payload was
sent, and unless its exchange has failed in another way than by the card giving it up, the next payload
begins with the other bit than the last information block that was sent.
-/

namespace CardLink

open Round (Tracks cardBits sentBits)

/-- The new starts are the answers to a request for one that were accepted. -/
theorem Exchange.Judges.isRestart_iff_accepted {x : Exchange} {r : Round Exchange} (judges : x.Judges r) :
    r.isRestart = true ↔ r.received.pcb = .response .resync ∧ r.refusal? = none := by
  rw [judges.isRestart_iff, Round.refusal?, judges.before]
  constructor
  · rintro ⟨-, resync, accepted⟩
    exact ⟨resync, accepted⟩
  · rintro ⟨resync, accepted⟩
    refine ⟨?_, resync, accepted⟩
    obtain ⟨-, reaction, t', rule⟩ := Transfer.refusal?_eq_none_iff.mp accepted
    change r.received.block.pcb = _ at resync
    cases rule <;> simp_all [Pcb.isPlainAck]

/-! ## What happens in a session -/

namespace Session

variable {σ : Type} [Backend σ]

def rounds (s : Session σ) (op : Operation) : List (Round Exchange) :=
  (s.course op).rounds.map (Round.map Host.view)

/-- The session once some operations were performed. -/
def after (s : Session σ) : List Operation → Session σ
  | [] => s
  | op :: ops => (s.perform op).2.after ops

/-- The rounds of some operations, one operation after the other. -/
def history (s : Session σ) : List Operation → List (Round Exchange)
  | [] => []
  | op :: ops => s.rounds op ++ (s.perform op).2.history ops

theorem after_append (s : Session σ) (ops : List Operation) (op : Operation) :
    s.after (ops ++ [op]) = ((s.after ops).perform op).2 := by
  induction ops generalizing s with
  | nil => rfl
  | cons first ops ih => exact ih _

theorem history_append (s : Session σ) (ops : List Operation) (op : Operation) :
    s.history (ops ++ [op]) = s.history ops ++ (s.after ops).rounds op := by
  induction ops generalizing s with
  | nil => exact List.append_nil _
  | cons first ops ih =>
    rw [List.cons_append, history, history, ih, List.append_assoc]
    rfl

/-- A round of some operations belongs to one of them, and comes after all rounds of those before. -/
theorem exists_rounds_of_history (s : Session σ) (ops : List Operation) {past rest : List (Round Exchange)}
    {r : Round Exchange} (split : s.history ops = past ++ r :: rest) : ∃ earlier op within later,
      (s.after earlier).rounds op = within ++ r :: later ∧ past = s.history earlier ++ within := by
  induction ops generalizing s past with
  | nil => simp [history] at split
  | cons op ops ih =>
    have later {past' : List (Round Exchange)} (split' : (s.perform op).2.history ops = past' ++ r :: rest)
        (rounds : past = s.rounds op ++ past') : ∃ earlier op within later,
          (s.after earlier).rounds op = within ++ r :: later ∧ past = s.history earlier ++ within := by
      obtain ⟨earlier, op', within, later, now, rfl⟩ := ih _ split'
      exact ⟨op :: earlier, op', within, later, now, by rw [rounds, history, List.append_assoc]⟩
    rcases List.append_eq_append_iff.mp split with ⟨past', rounds, split'⟩ | ⟨rest', split', more⟩
    · exact later split' rounds
    · cases rest' with
      | nil => exact @later [] more.symm (by rw [split', List.append_nil, List.append_nil])
      | cons first rest' =>
        obtain ⟨rfl, -⟩ := List.cons.inj more
        exact ⟨[], op, past, rest', split', rfl⟩

end Session

theorem Operation.exists_start (op : Operation) (s : Sequence) : ∃ purpose payload buffer,
    op.host s = .start purpose s (.into payload buffer) := by
  cases op with
  | transceive payload capacity => exact ⟨.transceive, payload, _, rfl⟩
  | negotiateIfs ifs => exact ⟨.negotiateIfs ifs, [], _, rfl⟩
  | abort => exact ⟨.abort, [], _, rfl⟩

namespace Session

variable {σ : Type} [Backend σ] {front : List (Round Exchange)}

/-- An operation takes the course of the exchange that it starts. -/
theorem run_start (s : Session σ) (op : Operation) {purpose : Purpose} {t : Transfer}
    (host : op.host s.sequence = .start purpose s.sequence t) :
    (Exchange.start purpose s.sequence t).run s.options s.backend = (s.course op).map Host.view := by
  rw [course, host]
  exact Host.run_start ..

/-- An operation takes the rounds of an exchange. -/
theorem exists_exchange (s : Session σ) (op : Operation) : ∃ purpose payload buffer,
    let x := Exchange.start purpose s.sequence (.into payload buffer)
    let course := x.run s.options s.backend
    s.rounds op = course.rounds ∧ (s.perform op).2.sequence = course.last.sequence ∧
      (s.perform op).2.backend = course.bus := by
  obtain ⟨purpose, payload, buffer, host⟩ := op.exists_start s.sequence
  refine ⟨purpose, payload, buffer, ?_⟩
  intro x course
  rw [show course = _ from s.run_start op host]
  exact ⟨rfl, rfl, rfl⟩

/-- What no round breaks on a bus is not broken by a session. -/
theorem backend_after {P : σ → Prop} (s : Session σ)
    (stays : ∀ x {bus}, P bus → P (Exchange.round s.options x bus).2.2) (holds : P s.backend)
    (ops : List Operation) : P (s.after ops).backend := by
  induction ops generalizing s with
  | nil => exact holds
  | cons op ops ih =>
    obtain ⟨purpose, payload, buffer, -, -, backend⟩ := s.exists_exchange op
    refine ih (s.perform op).2 stays ?_
    rw [backend]
    exact Course.bus_upTo stays _ _ holds

/-- An operation begins with the sequence bits of those before it, and leaves them as they are then. -/
theorem tracks_rounds (s : Session σ) (op : Operation) (tracks : Tracks front s.sequence) :
    (∀ past r rest, s.rounds op = past ++ r :: rest → Tracks (front ++ past) r.before.sequence) ∧
      Tracks (front ++ s.rounds op) (s.perform op).2.sequence := by
  obtain ⟨purpose, payload, buffer, rounds, sequence, -⟩ := s.exists_exchange op
  rw [rounds, sequence]
  have begun : (Exchange.start purpose s.sequence (.into payload buffer)).sequence = s.sequence := rfl
  rw [← begun] at tracks
  exact Exchange.tracks_runFor tracks (Exchange.isSteady_start ..) _ _ _

theorem tracks_after (s : Session σ) (ops : List Operation) (tracks : Tracks front s.sequence) :
    Tracks (front ++ s.history ops) (s.after ops).sequence := by
  induction ops generalizing s front with
  | nil =>
    rw [history, List.append_nil]
    exact tracks
  | cons op ops ih =>
    rw [history, ← List.append_assoc]
    exact ih _ (s.tracks_rounds op tracks).2

theorem tracks_history (s : Session σ) (ops : List Operation) (tracks : Tracks front s.sequence) :
    (∀ past r rest, s.history ops = past ++ r :: rest → Tracks (front ++ past) r.before.sequence) ∧
      Tracks (front ++ s.history ops) (s.after ops).sequence := by
  refine ⟨fun past r rest split => ?_, s.tracks_after ops tracks⟩
  obtain ⟨earlier, op, within, later, rounds, rfl⟩ := s.exists_rounds_of_history ops split
  rw [← List.append_assoc]
  exact ((s.after earlier).tracks_rounds op (s.tracks_after earlier tracks)).1 within r later rounds

theorem judges_of_mem_history (s : Session σ) (ops : List Operation) {r : Round Exchange}
    (member : r ∈ s.history ops) : ∃ x : Exchange, x.Judges r := by
  obtain ⟨_, _, split⟩ := List.append_of_mem member
  obtain ⟨earlier, op, within, later, split, -⟩ := s.exists_rounds_of_history ops split
  obtain ⟨_, _, _, rounds, -⟩ := (s.after earlier).exists_exchange op
  rw [rounds] at split
  obtain ⟨x, bus, -, rfl⟩ := Course.exists_reaches_of_split split
  exact ⟨x, rfl, judged_judge ..⟩

/-- The sequence bits of a session are in order, whatever operations were performed. -/
structure InSequence (s : Session ScriptedCard) (ops : List Operation) : Prop where
  -- A new start is an answer to the request for one that was accepted
  restarts : ∀ r ∈ s.history ops,
    r.isRestart = true ↔ r.received.pcb = .response .resync ∧ r.refusal? = none
  -- The bits are right before every round
  before : ∀ past r rest, s.history ops = past ++ r :: rest → Tracks past r.before.sequence
  -- They are right after the last round
  after : Tracks (s.history ops) (s.after ops).sequence
  -- After a payload that the card has taken or given up, the next one begins with the other bit than
  -- the last information block that was sent
  next : ∀ payload capacity payload' capacity',
    let op := Operation.transceive payload capacity
    let ending := ((s.after ops).perform op).1
    (∃ response, ending = .completed response) ∨ ending = .failed .abort →
      ∃ seq, (sentBits (s.history (ops ++ [op]))).getLast? = some seq ∧
        (sentBits ((s.after (ops ++ [op])).rounds (.transceive payload' capacity'))).head? = some (!seq)

/-- A session begins as if no block had been sent or received. -/
theorem sequence_of_connect {setup : Setup σ} {s : Session σ} (connected : setup.connect = .ok s) :
    s.sequence = .fresh := by
  unfold Setup.connect at connected
  cases valid : setup.options.validate with
  | error e =>
    rw [valid] at connected
    cases connected
  | ok _ =>
    rw [valid] at connected
    cases used : (Backend.connect : Bus σ Unit).run setup.backend with
    | ok _ backend =>
      simp only [used] at connected
      cases connected
      rfl
    | error e backend =>
      simp only [used] at connected
      cases connected

/-- A payload begins with the bit that follows the host's last one. -/
theorem head_sentBits (s : Session ScriptedCard) (payload : Bytes) (capacity : Nat) :
    (sentBits (s.rounds (.transceive payload capacity))).head? = some s.sequence.next := by
  obtain ⟨rest, rounds⟩ := Course.exists_rounds_succ (Exchange.round s.options)
    (s.backend.replies.length + 7) (.start .transceive s.sequence (.start payload capacity)) s.backend
  have seen := s.run_start (.transceive payload capacity) rfl
  have first : s.rounds (.transceive payload capacity) = _ := (congrArg Course.rounds seen).symm.trans rounds
  rw [first]
  rfl

/-- A payload that the card has taken or given up ends with an answer to the last information block. -/
theorem getLast?_sentBits (s : Session σ) (front : List (Round Exchange)) (payload : Bytes)
    (capacity : Nat) : let op := Operation.transceive payload capacity
    (∃ response, (s.perform op).1 = .completed response) ∨ (s.perform op).1 = .failed .abort →
      (sentBits (front ++ s.rounds op)).getLast? = some (s.perform op).2.sequence.host := by
  intro op settled
  have seen : (Exchange.start .transceive s.sequence (.start payload capacity)).runFor s.options
      (Backend.horizon s.backend) s.backend = (s.course op).map Host.view := s.run_start op rfl
  have sent := Exchange.sent_of_runFor front s.sequence (.start payload capacity) s.options
    (Backend.horizon s.backend) s.backend
  rw [seen] at sent
  exact sent settled

/-- The sequence bits of a session stay in order from its beginning on. -/
theorem inSequence_of_connect {setup : Setup ScriptedCard} {s : Session ScriptedCard}
    (connected : setup.connect = .ok s) (ops : List Operation) : s.InSequence ops := by
  have tracks : Tracks [] s.sequence := by
    rw [sequence_of_connect connected]
    exact Round.tracks_of_nothing rfl
  obtain ⟨before, after⟩ := s.tracks_history ops tracks
  refine ⟨fun r member => ?_, before, after, fun payload capacity payload' capacity' settled => ?_⟩
  · obtain ⟨x, judges⟩ := s.judges_of_mem_history ops member
    exact judges.isRestart_iff_accepted
  · refine ⟨((s.after ops).perform (.transceive payload capacity)).2.sequence.host, ?_, ?_⟩
    · rw [history_append]
      exact (s.after ops).getLast?_sentBits (s.history ops) payload capacity settled
    · rw [after_append]
      exact head_sentBits _ payload' capacity'

/-- The card that agrees to start again is heard with two blocks after that, and then falls silent. -/
theorem inSequence_restarting : ∃ s, (Setup.announced ScriptedCard.restarting).connect = .ok s ∧
    cardBits (s.history [.transceive [7] 2, .abort]) = [false, true] ∧
    s.InSequence [.transceive [7] 2, .abort] :=
  let s : Session ScriptedCard :=
    ⟨{ ScriptedCard.restarting with opened := true }, ScriptedCard.restarting.settings, .fresh, none⟩
  have connected : (Setup.announced ScriptedCard.restarting).connect = .ok s := rfl
  have bits : cardBits (s.history [.transceive [7] 2, .abort]) = [false, true] := by decide +kernel
  ⟨s, connected, bits, inSequence_of_connect connected [.transceive [7] 2, .abort]⟩

end Session

end CardLink
