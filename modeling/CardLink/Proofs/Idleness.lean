import CardLink.Backend.Observed
import CardLink.Backend.TransactionMonitor
import CardLink.Proofs.Sessions
import CardLink.Proofs.Termination

/-!
# Leaving the bus idle

A monitor watches how a session uses the bus. To it, a poll holds the bus until a read is marked as
complete, whether the poll matches or not, so no frame may be transmitted in between. The host reads only
after a match, and then lets go of the bus. After a poll in vain it does not, so the bus stays held, and the
next transmission is rejected.

Polls match if the host listens for the address that the monitor answers to. Under these options all is
well, and the bus is idle after every operation. Under any other address the first operation of a session
is already rejected a frame, and the bus is never idle again (`Session.leavesIdle_iff`).
-/

namespace CardLink

open TransactionMonitor (Fault address)

/-! ## One frame -/

/-- A transmission or a poll was rejected because the other direction held the bus. -/
def Event.isRejected : Event → Bool
  | transmit _ _ (.error e) | poll _ _ _ (.error e) =>
    e == Fault.transmitDuringReceive.error || e == Fault.receiveDuringTransmit.error
  | _ => false

/-- An open monitor and what has happened on it. No transmission is under way, and perhaps no reception. -/
def Observed.watching (received : Bool) (events : List Event) : Observed TransactionMonitor :=
  ⟨⟨some ⟨received, true⟩⟩, events⟩

namespace Frame

open Observed (watching)

variable {o : Options} {timeout : Duration}

/-- The monitor's address is seen. The header that follows it was written by nobody and reserves LEN, so
    the reception is broken off, which lets go of the bus. -/
theorem listen_of_address (mine : o.host = address) (waits : timeout.isZero = false) (received : Bool)
    (events : List Event) : listen o timeout (watching received events) = (.absent,
      watching true (events ++ [.poll address timeout false (.ok .matched),
        .receive 2 false (.ok ⟨2, []⟩), .receive 0 true (.ok ⟨0, []⟩)])) := by
  have polls : (Backend.poll address timeout false : Bus (Observed TransactionMonitor) PollResult)
      (watching received events) =
        .ok .matched (watching false (events ++ [.poll address timeout false (.ok .matched)])) := by
    simp [Backend.poll, Observed.noting, TransactionMonitor.poll, TransactionMonitor.whenOpen, waits,
      watching]
  rw [listen, receive, mine, EStateM.run_bind, EStateM.run, polls]
  change (absent, watching true (events ++ [_] ++ [_] ++ [_])) = _
  rw [List.append_assoc, List.append_assoc]
  rfl

/-- No other address is seen, and the bus is held. -/
theorem listen_of_other (other : o.host ≠ address) (waits : timeout.isZero = false) (received : Bool)
    (events : List Event) : listen o timeout (watching received events) =
      (.absent, watching false (events ++ [.poll o.host timeout false (.ok .timedOut)])) := by
  have polls : (Backend.poll o.host timeout false : Bus (Observed TransactionMonitor) PollResult)
      (watching received events) =
        .ok .timedOut (watching false (events ++ [.poll o.host timeout false (.ok .timedOut)])) := by
    simp [Backend.poll, Observed.noting, TransactionMonitor.poll, TransactionMonitor.whenOpen, waits,
      watching, other]
  rw [listen, receive, EStateM.run_bind, EStateM.run, polls]
  rfl

theorem converse_of_address (mine : o.host = address) (waits : timeout.isZero = false) (f : Frame)
    (events : List Event) : ∃ fresh, converse o timeout f (watching true events) =
      (.absent, watching true (events ++ fresh)) ∧ ∀ e ∈ fresh, e.isRejected = false := by
  have sends : stateAfter ((send o f).run (watching true events)) = watching true (events ++
      [.transmit (o.outbound f).bytes true (.ok (o.outbound f).bytes.length)]) := rfl
  rw [converse, sends, listen_of_address mine waits, List.append_assoc]
  exact ⟨_, rfl, by simp [Event.isRejected]⟩

/-- A frame that is sent while the bus is held is rejected. -/
theorem converse_of_other (other : o.host ≠ address) (waits : timeout.isZero = false) (f : Frame)
    (received : Bool) (events : List Event) : ∃ fresh,
      converse o timeout f (watching received events) = (.absent, watching false (events ++ fresh)) ∧
        (received = false → ∃ e ∈ fresh, e.isRejected = true) := by
  have sends : ∃ result, stateAfter ((send o f).run (watching received events)) = watching received
      (events ++ [.transmit (o.outbound f).bytes true result]) ∧
        (received = false → result = .error Fault.transmitDuringReceive.error) := by
    cases received with
    | true => exact ⟨_, rfl, nofun⟩
    | false => exact ⟨_, rfl, fun _ => rfl⟩
  obtain ⟨result, sends, rejected⟩ := sends
  rw [converse, sends, listen_of_other other waits, List.append_assoc]
  refine ⟨_, rfl, fun held => ⟨_, List.mem_cons_self, ?_⟩⟩
  rw [rejected held]
  rfl

end Frame

/-! ## Rounds -/

namespace Observed

variable {t : Observed TransactionMonitor}

/-- The bus is idle, and nothing was rejected. -/
def IsCalm (t : Observed TransactionMonitor) : Prop :=
  ∃ events, t = watching true events ∧ ∀ e ∈ events, e.isRejected = false

/-- The bus is held since a poll in vain. -/
def IsHeld (t : Observed TransactionMonitor) : Prop := ∃ events, t = watching false events

/-- The bus is held, and something was rejected. -/
def IsStuck (t : Observed TransactionMonitor) : Prop :=
  ∃ events, t = watching false events ∧ ∃ e ∈ events, e.isRejected = true

theorem IsStuck.isHeld (stuck : t.IsStuck) : t.IsHeld := by
  obtain ⟨events, held, -⟩ := stuck
  exact ⟨events, held⟩

end Observed

/-- A wait that was agreed on takes some time, however often it is stretched. -/
theorem Transfer.isZero_timeout {o : Options} (waits : o.bwt.isZero = false) (t : Transfer) :
    (t.timeout o).isZero = false := by
  rw [timeout, o.bwt.isZero_scale t.wait.pos, waits]

theorem Options.isZero_bwt {o : Options} (valid : o.validate = .ok ()) : o.bwt.isZero = false := by
  cases zero : o.bwt.isZero with
  | false => rfl
  | true =>
    simp only [validate, fault?, zero, if_true] at valid
    cases valid

namespace Exchange

open Observed (watching)

variable {o : Options}

/-- A monitor can not be reset, so a verdict is acted on without it. -/
theorem follow_monitor (x : Exchange) (v : Verdict) (t : Observed TransactionMonitor) :
    (x.follow v t).2 = t := by
  rcases x.follow_bus_cases v t with same | ⟨-, reset⟩
  · exact same
  · exact reset

theorem round_of_converse {x : Exchange} {t t' : Observed TransactionMonitor} {f : Frame}
    (hears : x.converse o t = (f, t')) : (round o x t).1.received = f ∧ (round o x t).2.2 = t' := by
  refine ⟨congrArg Prod.fst hears, ?_⟩
  have follows : (round o x t).2.2 = (x.converse o t).2 := x.follow_monitor _ _
  rw [follows, hears]

theorem isCalm_round (mine : o.host = address) (waits : o.bwt.isZero = false) (x : Exchange)
    {t : Observed TransactionMonitor} (calm : t.IsCalm) : (round o x t).2.2.IsCalm := by
  obtain ⟨events, rfl, accepted⟩ := calm
  obtain ⟨fresh, hears, accepted'⟩ := Frame.converse_of_address mine (x.transfer.isZero_timeout waits)
    x.outgoing.frame events
  refine ⟨events ++ fresh, (round_of_converse hears).2, fun e member => ?_⟩
  rcases List.mem_append.mp member with earlier | now
  · exact accepted e earlier
  · exact accepted' e now

/-- A poll in vain takes hold of the bus. -/
theorem isHeld_round (other : o.host ≠ address) (waits : o.bwt.isZero = false) (x : Exchange)
    (received : Bool) (events : List Event) :
    (round o x (watching received events)).1.received = .absent ∧
      (round o x (watching received events)).2.2.IsHeld := by
  obtain ⟨fresh, hears, -⟩ := Frame.converse_of_other other (x.transfer.isZero_timeout waits)
    x.outgoing.frame received events
  exact ⟨(round_of_converse hears).1, _, (round_of_converse hears).2⟩

/-- While the bus is held, the next frame is rejected. -/
theorem isStuck_round (other : o.host ≠ address) (waits : o.bwt.isZero = false) (x : Exchange)
    {t : Observed TransactionMonitor} (held : t.IsHeld) : (round o x t).2.2.IsStuck := by
  obtain ⟨events, rfl⟩ := held
  obtain ⟨fresh, hears, rejected⟩ := Frame.converse_of_other other (x.transfer.isZero_timeout waits)
    x.outgoing.frame false events
  obtain ⟨e, now, rejected⟩ := rejected rfl
  exact ⟨_, (round_of_converse hears).2, e, List.mem_append_right _ now, rejected⟩

end Exchange

/-! ## Sessions -/

namespace Session

open Observed (watching)

variable {o : Options}

/-- The first operation of a session asks at least twice for an answer, so it is rejected a frame. -/
theorem isStuck_perform (s : Session (Observed TransactionMonitor)) (other : s.options.host ≠ address)
    (waits : s.options.bwt.isZero = false) {received : Bool} {events : List Event}
    (watched : s.backend = watching received events) (op : Operation) :
    (s.perform op).2.backend.IsStuck := by
  obtain ⟨purpose, payload, buffer, -, -, backend⟩ := s.exists_exchange op
  let x := Exchange.start purpose s.sequence (.into payload buffer)
  obtain ⟨absent, held⟩ := Exchange.isHeld_round other waits x received events
  rw [backend, watched]
  change (Course.upTo (Exchange.round s.options) 8 x (watching received events)).bus.IsStuck
  match first : Exchange.round s.options x (watching received events) with
  | (r, .going y, t) =>
    rw [first] at held
    rw [Course.upTo_going 7 first]
    exact Course.bus_upTo_succ (fun _ _ stuck => Exchange.isStuck_round other waits _ stuck.isHeld) 6 y
      (Exchange.isStuck_round other waits y held)
  | (r, .ended ending y, t) =>
    -- Only the request for a new start ends an exchange if it is not answered.
    rw [first] at absent
    obtain ⟨judges, ends⟩ := Exchange.ends_of_round first
    have refused := Exchange.refused_of_absent absent
    have regular := Exchange.isRegular_start purpose s.sequence payload buffer
    exact absurd (regular.unanswered_of_refused judges refused ends).2.1
      (Exchange.reference_start_ne_resync _ _ _)

variable {s : Session (Observed TransactionMonitor)}

/-- A session is only ended while the bus is idle. -/
theorem disconnect_of_watching {received : Bool} {events : List Event}
    (watched : s.backend = watching received events) : s.disconnect =
      if received then .ok ⟨⟨{}, events⟩, s.options⟩ else .error Fault.closedMidTransfer.error := by
  unfold disconnect
  rw [watched]
  cases received <;> rfl

theorem of_isCalm (calm : s.backend.IsCalm) : (∀ e ∈ s.backend.events, e.isRejected = false) ∧
    s.backend.bus.isIdle = true ∧ ∃ setup, s.disconnect = .ok setup := by
  obtain ⟨events, watched, accepted⟩ := calm
  have ended := disconnect_of_watching watched
  rw [watched]
  exact ⟨accepted, rfl, _, ended⟩

theorem of_isStuck (stuck : s.backend.IsStuck) : (¬∀ e ∈ s.backend.events, e.isRejected = false) ∧
    s.backend.bus.isIdle ≠ true ∧ ¬∃ setup, s.disconnect = .ok setup := by
  obtain ⟨events, watched, e, member, rejected⟩ := stuck
  have kept := disconnect_of_watching watched
  rw [watched, kept]
  refine ⟨fun accepted => ?_, Bool.false_ne_true, nofun⟩
  rw [accepted e member] at rejected
  cases rejected

/-- Under valid options, a session with a monitor is not rejected any frame or poll, leaves the bus idle
    and can be ended, exactly if it listens for the address that the monitor answers to or has done nothing
    yet. Else it is rejected a frame in its first operation already. -/
theorem leavesIdle_iff (monitor : TransactionMonitor) (o : Options) (valid : o.validate = .ok ()) :
    ∃ s : Session (Observed TransactionMonitor), Setup.connect ⟨⟨monitor, []⟩, o⟩ = .ok s ∧
      ∀ ops : List Operation,
        let t := (s.after ops).backend
        let harmless := o.host = address ∨ ops = []
        ((∀ e ∈ t.events, e.isRejected = false) ↔ harmless) ∧ (t.bus.isIdle = true ↔ harmless) ∧
          ((∃ setup, (s.after ops).disconnect = .ok setup) ↔ harmless) := by
  let s : Session (Observed TransactionMonitor) := ⟨watching true [], o, .fresh, none⟩
  have connected : Setup.connect ⟨⟨monitor, []⟩, o⟩ = .ok s := by
    unfold Setup.connect
    rw [valid]
    rfl
  have waits := o.isZero_bwt valid
  have begun : s.backend.IsCalm := ⟨[], rfl, nofun⟩
  refine ⟨s, connected, fun ops => ?_⟩
  intro t harmless
  by_cases holds : harmless
  · have calm : (s.after ops).backend.IsCalm := by
      rcases holds with mine | rfl
      · exact s.backend_after (fun x _ calm => x.isCalm_round mine waits calm) begun ops
      · exact begun
    obtain ⟨accepted, idle, ended⟩ := of_isCalm calm
    exact ⟨iff_of_true accepted holds, iff_of_true idle holds, iff_of_true ended holds⟩
  · have stuck : (s.after ops).backend.IsStuck := by
      obtain ⟨other, some⟩ := not_or.mp holds
      cases ops with
      | nil => exact absurd rfl some
      | cons op ops =>
        exact (s.perform op).2.backend_after
          (fun x _ stuck => x.isStuck_round other waits stuck.isHeld)
          (s.isStuck_perform other waits rfl op) ops
    obtain ⟨rejected, busy, kept⟩ := of_isStuck stuck
    exact ⟨iff_of_false rejected holds, iff_of_false busy holds, iff_of_false kept holds⟩

/-- The options that the monitor announces name its own address. -/
theorem leavesIdle_of_announced :
    let o := Backend.options ({} : TransactionMonitor)
    let ops := [Operation.transceive [0x00, 0x84] 8, .negotiateIfs .largest, .abort]
    o.validate = .ok () ∧ ∃ s : Session (Observed TransactionMonitor),
      Setup.connect ⟨⟨{}, []⟩, o⟩ = .ok s ∧ (∀ e ∈ (s.after ops).backend.events, e.isRejected = false) ∧
        (s.after ops).backend.bus.isIdle = true ∧ ∃ setup, (s.after ops).disconnect = .ok setup := by
  intro o ops
  obtain ⟨s, connected, uses⟩ := leavesIdle_iff {} o rfl
  obtain ⟨accepted, idle, ended⟩ := uses ops
  exact ⟨rfl, s, connected, accepted.mpr (.inl rfl), idle.mpr (.inl rfl), ended.mpr (.inl rfl)⟩

/-- The default options name another address. After a single operation the bus is held, frames were
    rejected, and the session can not be ended. -/
theorem heldBus_of_default :
    let o : Options := {}
    let s : Session (Observed TransactionMonitor) := ⟨watching true [], o, .fresh, none⟩
    let used := s.after [.abort]
    o.validate = .ok () ∧ Setup.connect ⟨⟨{}, []⟩, o⟩ = .ok s ∧
      used.backend.events.any Event.isRejected = true ∧ used.backend.bus.isIdle = false ∧
        used.disconnect = .error Fault.closedMidTransfer.error := by
  exact ⟨rfl, rfl, by decide +kernel, by decide +kernel, rfl⟩

end Session

end CardLink
