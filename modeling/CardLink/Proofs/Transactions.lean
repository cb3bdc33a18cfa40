import Mathlib.Data.List.Forall2
import CardLink.Backend.Observed
import CardLink.Backend.Playback
import CardLink.Proofs.Refinement
import CardLink.Proofs.Rounds

/-!
# Transactions on the bus

A poll that matches makes the host hold the bus, and a read that is marked as complete lets go of it. A
round is one such transaction at most (`Event.IsTurn`): the host transmits one whole frame, polls once, and
reads only after a match. However the reads end, the last of them is a complete one
(`Event.IsReception`), and be it only to let go of the bus after one that failed. So nothing is ever
transmitted while the bus is held (`Host.turns_of_runFor`), whatever the backend does.

`Observed.Notes` says of an operation what it does on the bus, given how it ends.
-/

namespace CardLink

namespace Event

def isTransmission : Event → Bool
  | transmit _ _ _ => true
  | poll _ _ _ _ | receive _ _ _ => false

/-- A poll has matched. -/
def isMatch : Event → Bool
  | poll _ _ _ (.ok .matched) => true
  | _ => false

/-- A read was marked as complete, whether it succeeded or not. -/
def isCompletion : Event → Bool
  | receive _ complete _ => complete
  | transmit _ _ _ | poll _ _ _ _ => false

/-- Whether the host holds the bus after an event. -/
def holding (held : Bool) (event : Event) : Bool :=
  event.isMatch || held && !event.isCompletion

/-- There was a match, and no complete read since. -/
def isHeld (events : List Event) : Bool := events.foldl holding false

/-- The reads after a match. -/
inductive IsReception : List Event → Prop where
  -- The header can not be read
  | headless (failure : Error) (released : Except Error Reading) :
    IsReception [receive 2 false (.error failure), receive 0 true released]
  -- The header is short, or reserves LEN, and nothing more is asked for
  | refused (start : Reading) (unusable : start.count ≠ 2 ∨ start.data[1]?.getD 255 = 255)
    (released : Except Error Reading) :
    IsReception [receive 2 false (.ok start), receive 0 true released]
  -- The body is read, perhaps not all of it
  | read (start : Reading) (len : UInt8) (usable : start.count = 2)
    (announced : start.data[1]?.getD 255 = len) (proper : len ≠ 255) (rest : Reading) :
    IsReception [receive 2 false (.ok start), receive (len.toNat + 1) true (.ok rest)]
  -- The body can not be read
  | bodiless (start : Reading) (len : UInt8) (usable : start.count = 2)
    (announced : start.data[1]?.getD 255 = len) (proper : len ≠ 255) (failure : Error)
    (released : Except Error Reading) :
    IsReception [receive 2 false (.ok start), receive (len.toNat + 1) true (.error failure),
      receive 0 true released]

/-- What a host does on the bus to await a frame. -/
inductive IsHearing (o : Options) (timeout : Duration) : List Event → Prop where
  | nothing (result : Except Error PollResult) (noMatch : result ≠ .ok .matched) :
    IsHearing o timeout [poll o.host timeout false result]
  | frame {reads : List Event} (reception : IsReception reads) :
    IsHearing o timeout (poll o.host timeout false (.ok .matched) :: reads)

/-- What a host does on the bus to send some bytes and await a frame. -/
inductive IsTurn (o : Options) (bytes : Bytes) (timeout : Duration) : List Event → Prop where
  | sent (result : Except Error Nat) {events : List Event} (hearing : IsHearing o timeout events) :
    IsTurn o bytes timeout (transmit bytes true result :: events)

end Event

/-! ## What operations do on the bus -/

namespace Observed

variable {σ α β : Type}

def outcome : EStateM.Result Error σ α → Except Error α
  | .ok a _ => .ok a
  | .error e _ => .error e

/-- What an operation does on the bus fits to how it ends. -/
def Notes (operation : Bus (Observed σ) α) (fits : Except Error α → List Event → Prop) : Prop :=
  ∀ t, ∃ events, (Frame.stateAfter (operation.run t)).events = t.events ++ events ∧
    fits (outcome (operation.run t)) events

variable {fits : Except Error α → List Event → Prop} {fits' : Except Error β → List Event → Prop}

theorem notes_pure (a : α) (nothing : fits (.ok a) []) : Notes (pure a : Bus (Observed σ) α) fits :=
  fun _ => ⟨[], (List.append_nil _).symm, nothing⟩

theorem notes_throw (e : Error) (nothing : fits (.error e) []) :
    Notes (throw e : Bus (Observed σ) α) fits :=
  fun _ => ⟨[], (List.append_nil _).symm, nothing⟩

theorem notes_noting (event : Except Error α → Event) (operation : Bus σ α) :
    Notes (noting event operation) fun result events => events = [event result] := by
  intro t
  simp only [EStateM.run, noting]
  cases operation t.bus <;> exact ⟨_, rfl, rfl⟩

theorem Notes.imp {operation : Bus (Observed σ) α} {fits' : Except Error α → List Event → Prop}
    (notes : Notes operation fits) (weaker : ∀ {result events}, fits result events →
      fits' result events) : Notes operation fits' := by
  intro t
  obtain ⟨events, noted, fit⟩ := notes t
  exact ⟨events, noted, weaker fit⟩

/-- What two operations do, one after the other. The second is not reached if the first one fails. -/
theorem Notes.bind {operation : Bus (Observed σ) α} {rest : α → Bus (Observed σ) β}
    (first : Notes operation fits)
    (failed : ∀ {e events}, fits (.error e) events → fits' (.error e) events)
    (second : ∀ a {past}, fits (.ok a) past →
      Notes (rest a) fun result events => fits' result (past ++ events)) :
    Notes (operation >>= rest) fits' := by
  intro t
  obtain ⟨past, noted, fit⟩ := first t
  rw [EStateM.run_bind]
  cases result : operation.run t with
  | error e t' =>
    rw [result] at noted fit
    exact ⟨past, noted, failed fit⟩
  | ok a t' =>
    rw [result] at noted fit
    obtain ⟨events, noted', fit'⟩ := second a fit t'
    refine ⟨past ++ events, ?_, fit'⟩
    rw [noted', ← List.append_assoc]
    exact congrArg (· ++ events) noted

end Observed

namespace Frame

open Observed Event

variable {σ : Type} [Backend σ]

theorem notes_release : Notes (release : Bus (Observed σ) Unit) fun _ events =>
    ∃ released, events = [Event.receive 0 true released] := by
  refine (notes_noting _ _).bind (fun noted => ⟨_, noted⟩) fun reading past noted => ?_
  exact notes_pure () ⟨_, by rw [noted, List.append_nil]⟩

theorem notes_releaseAndThrow {α : Type} (failure : Error) :
    Notes (releaseAndThrow failure : Bus (Observed σ) α) fun _ events =>
      ∃ released, events = [Event.receive 0 true released] := by
  refine notes_release.bind (fun noted => noted) fun _ past ⟨released, noted⟩ => ?_
  exact notes_throw failure ⟨released, by rw [noted, List.append_nil]⟩

/-- A read that fails is followed by one that lets go of the bus. -/
theorem notes_guardedRead (room : Nat) (complete : Bool) :
    Notes (guardedRead room complete : Bus (Observed σ) Reading) fun result events =>
      match result with
      | .ok reading => events = [Event.receive room complete (.ok reading)]
      | .error failure => ∃ released,
        events = [Event.receive room complete (.error failure), Event.receive 0 true released] := by
  intro t
  have notes : Notes (Backend.receive room complete : Bus (Observed σ) Reading) fun result events =>
    events = [Event.receive room complete result] := notes_noting _ _
  obtain ⟨_, noted, rfl⟩ := notes t
  simp only [EStateM.run] at noted
  simp only [EStateM.run, guardedRead]
  cases result : (Backend.receive room complete : Bus (Observed σ) Reading) t with
  | ok reading t' =>
    rw [result] at noted
    exact ⟨_, noted, rfl⟩
  | error failure t' =>
    rw [result] at noted
    obtain ⟨_, noted', unread, rfl⟩ := notes_release t'
    -- Whether the bus could be released makes no difference to the failure.
    have both : (stateAfter ((release : Bus (Observed σ) Unit) t')).events = t.events ++
        [Event.receive room complete (.error failure), Event.receive 0 true unread] := by
      rw [show (release : Bus (Observed σ) Unit) t' = release.run t' from rfl, noted',
        show t'.events = _ from noted, List.append_assoc]
      rfl
    dsimp only
    cases released : (release : Bus (Observed σ) Unit) t' <;> rw [released] at both <;>
      exact ⟨_, both, unread, rfl⟩

/-- Once a poll has matched, a host does nothing but read, and lets go of the bus at the end. -/
theorem notes_receiveRest (o : Options) :
    Notes (receiveRest o absent : Bus (Observed σ) Frame) fun _ events => IsReception events := by
  refine (notes_guardedRead 2 false).bind ?_ fun start past noted => ?_
  · rintro failure events ⟨released, rfl⟩
    exact .headless failure released
  · obtain rfl : past = _ := noted
    dsimp only
    split
    next short =>
      refine (notes_releaseAndThrow _).imp ?_
      rintro _ events ⟨released, rfl⟩
      exact .refused start (.inl short) released
    next whole =>
      have usable : start.count = 2 := Decidable.not_not.mp whole
      split
      next reserved =>
        refine (notes_releaseAndThrow _).imp ?_
        rintro _ events ⟨released, rfl⟩
        exact .refused start (.inr reserved) released
      next proper =>
        refine (notes_guardedRead _ true).bind ?_ fun rest past noted => ?_
        · rintro failure events ⟨released, rfl⟩
          exact .bodiless start _ usable rfl proper failure released
        · obtain rfl : past = _ := noted
          have done := IsReception.read start _ usable rfl proper rest
          split
          · exact notes_pure _ done
          · exact notes_throw _ done

theorem notes_receive (o : Options) (timeout : Duration) :
    Notes (receive o timeout absent : Bus (Observed σ) Frame) fun _ events =>
      IsHearing o timeout events := by
  refine (notes_noting (.poll o.host timeout false) (Backend.poll o.host timeout false)).bind ?_ ?_
  · rintro failure events rfl
    exact .nothing _ nofun
  · rintro seen past rfl
    cases seen with
    | timedOut => exact notes_throw _ (.nothing _ nofun)
    | matched => exact (notes_receiveRest o).imp fun reception => .frame reception

theorem exists_hearing (o : Options) (timeout : Duration) (t : Observed σ) :
    ∃ events, (listen o timeout t).2.events = t.events ++ events ∧ IsHearing o timeout events := by
  obtain ⟨events, noted, hearing⟩ := notes_receive o timeout t
  refine ⟨events, ?_, hearing⟩
  rw [← noted, listen]
  cases (receive o timeout absent).run t <;> rfl

/-- To send a frame and to await the answer is one turn on the bus, also if the frame could not be sent. -/
theorem exists_turn (o : Options) (timeout : Duration) (f : Frame) (t : Observed σ) :
    ∃ events, (converse o timeout f t).2.events = t.events ++ events ∧
      IsTurn o (o.outbound f).bytes timeout events := by
  have notes : Notes (send o f : Bus (Observed σ) Nat) fun result events =>
    events = [transmit (o.outbound f).bytes true result] := notes_noting _ _
  obtain ⟨_, sent, rfl⟩ := notes t
  obtain ⟨events, heard, hearing⟩ := exists_hearing o timeout (stateAfter ((send o f).run t))
  refine ⟨transmit (o.outbound f).bytes true (outcome ((send o f).run t)) :: events, ?_,
    .sent _ hearing⟩
  rw [converse, heard, sent, List.append_assoc]
  rfl

end Frame

namespace Host

open Event Observed

variable {σ : Type} [Backend σ]

/-- A verdict is acted on without a transaction. -/
theorem events_follow (h : Host) (o : Options) (v : Verdict) (t : Observed σ) :
    (h.follow o v t).2.events = t.events := by
  have viewed : (h.follow o v t).2 = (h.view.follow v t).2 := by rw [h.follow_view o]
  rw [viewed]
  rcases h.view.follow_bus_cases v t with same | ⟨-, reset⟩
  · rw [same]
  · rw [reset]
    simp only [Backend.reset, unnoticed, EStateM.run]
    cases (Backend.reset : Bus σ Unit) t.bus <;> rfl

/-- A round is one turn on the bus. -/
theorem exists_turn_of_round {h : Host} {o : Options} {t t' : Observed σ} {r : Round Host}
    {step : Step Host} (next : round o h t = (r, step, t')) :
    ∃ turn, t'.events = t.events ++ turn ∧
      IsTurn o (o.outbound r.before.outgoing).bytes (r.before.timeout o) turn := by
  simp only [round, Prod.mk.injEq] at next
  obtain ⟨rfl, goes⟩ := next
  obtain ⟨turn, noted, isTurn⟩ := Frame.exists_turn o (h.timeout o) h.outgoing t
  refine ⟨turn, ?_, isTurn⟩
  rw [← show _ = t' from congrArg Prod.snd goes, events_follow, ← noted]
  rfl

end Host

/-! ## Holding the bus -/

namespace Event

variable {o : Options} {bytes : Bytes} {timeout : Duration} {events later : List Event}

/-- Nothing is transmitted while the bus is held, and at the end it is not held. -/
structure IsOrderly (events : List Event) : Prop where
  released : isHeld events = false
  sent : ∀ past sent rest, events = past ++ sent :: rest → sent.isTransmission = true →
    isHeld past = false

theorem isOrderly_nil : IsOrderly [] where
  released := rfl
  sent past sent rest split := by simp at split

theorem IsOrderly.append (orderly : IsOrderly events) (orderly' : IsOrderly later) :
    IsOrderly (events ++ later) := by
  have behind (past : List Event) : isHeld (events ++ past) = isHeld past := by
    rw [isHeld, List.foldl_append]
    exact congrArg (past.foldl holding) orderly.released
  refine ⟨(behind later).trans orderly'.released, fun past sent rest split transmits => ?_⟩
  rcases List.append_eq_append_iff.mp split with ⟨between, rfl, now⟩ | ⟨between, before, after⟩
  · rw [behind]
    exact orderly'.sent between sent rest now transmits
  · cases between with
    | nil =>
      rw [List.append_nil] at before
      rw [← before]
      exact orderly.released
    | cons first between =>
      obtain ⟨rfl, -⟩ := List.cons.inj after
      exact orderly.sent past _ between before transmits

theorem isOrderly_flatten {α : Type} {rounds : List α} {turns : List (List Event)}
    (each : List.Forall₂ (fun _ turn => IsOrderly turn) rounds turns) : IsOrderly turns.flatten := by
  induction each with
  | nil => exact isOrderly_nil
  | cons first _ ih => exact first.append ih

theorem isMatch_poll {nad : UInt8} {complete : Bool} {result : Except Error PollResult}
    (noMatch : result ≠ .ok .matched) : (poll nad timeout complete result).isMatch = false := by
  match result, noMatch with
  | .error _, _ | .ok .timedOut, _ => rfl
  | .ok .matched, noMatch => exact absurd rfl noMatch

/-- In a turn nothing is transmitted but at its start, and it lets go of the bus if it got hold of it. -/
theorem IsTurn.isOrderly (turn : IsTurn o bytes timeout events) : IsOrderly events := by
  obtain @⟨result, heard, hearing⟩ := turn
  have quiet : ∀ e ∈ heard, e.isTransmission = false := by
    cases hearing with
    | nothing => simp [isTransmission]
    | frame reception => cases reception <;> simp [isTransmission]
  refine ⟨?_, fun past sent rest split transmits => ?_⟩
  · cases hearing with
    | nothing polled noMatch => exact (Bool.or_false _).trans (isMatch_poll noMatch)
    | frame reception => cases reception <;> rfl
  · cases past with
    | nil => rfl
    | cons first past =>
      obtain ⟨-, later⟩ := List.cons.inj split
      have member : sent ∈ heard := by simp [later]
      rw [quiet sent member] at transmits
      cases transmits

/-- Whatever goes wrong in a turn that gets hold of the bus, its last read is a complete one. -/
theorem IsTurn.exists_last (turn : IsTurn o bytes timeout events) {e : Event} (member : e ∈ events)
    (matched : e.isMatch = true) : ∃ last, events.getLast? = some last ∧ last.isCompletion = true := by
  obtain ⟨result, hearing⟩ := turn
  cases hearing with
  | nothing polled noMatch =>
    rcases List.mem_pair.mp member with rfl | rfl
    · cases matched
    · rw [isMatch_poll noMatch] at matched
      cases matched
  | frame reception => cases reception <;> exact ⟨_, rfl, rfl⟩

end Event

/-- Each round of a host, whatever becomes of it, is one turn on the bus. If it gets hold of the bus, its
    last read lets go of it, so nothing is transmitted between a match and a complete read. -/
theorem Host.turns_of_runFor {σ : Type} [Backend σ] (h : Host) (o : Options) (n : Nat)
    (t : Observed σ) :
    let course := h.runFor o n t
    ∃ turns : List (List Event), course.bus.events = t.events ++ turns.flatten ∧
      List.Forall₂ (fun r turn =>
        Event.IsTurn o (o.outbound r.before.outgoing).bytes (r.before.timeout o) turn ∧
          ∀ e ∈ turn, e.isMatch = true →
            ∃ last, turn.getLast? = some last ∧ last.isCompletion = true) course.rounds turns ∧
      ∀ past sent rest, turns.flatten = past ++ sent :: rest → sent.isTransmission = true →
        Event.isHeld past = false := by
  intro course
  obtain ⟨turns, noted, each⟩ := Course.exists_entries (round o) Observed.events
    (fun (r : Round Host) turn =>
      Event.IsTurn o (o.outbound r.before.outgoing).bytes (r.before.timeout o) turn)
    exists_turn_of_round n h t
  have orderly := Event.isOrderly_flatten (each.imp fun _ _ turn => turn.isOrderly)
  exact ⟨turns, noted, each.imp fun _ _ turn => ⟨turn, fun _ => turn.exists_last⟩, orderly.sent⟩

/-- The card answers, but its header can not be read, nor the bus be released without another failure. The
    next frame is sent all the same, while the bus is not held. -/
theorem Host.turns_of_fault :
    let t : Observed Playback := ⟨⟨[.ok .matched], [.error .timeout, .error .abort], []⟩, []⟩
    let events := ((start .transceive .fresh (.start [7] 4)).runFor {} 2 t).bus.events
    ∃ past sent rest, events = past ++ sent :: rest ∧ past.any Event.isMatch = true ∧
      sent.isTransmission = true ∧ Event.isHeld past = false := by
  intro t events
  obtain ⟨turns, noted, -, orderly⟩ := turns_of_runFor (start .transceive .fresh (.start [7] 4)) {} 2 t
  have fifth : events[4]?.any Event.isTransmission = true := by decide +kernel
  obtain ⟨sent, there, sends⟩ := (Option.any_eq_true ..).mp fifth
  obtain ⟨long, rfl⟩ := List.getElem?_eq_some_iff.mp there
  have split : events = events.take 4 ++ events[4] :: events.drop 5 := by
    rw [← List.drop_eq_getElem_cons, List.take_append_drop]
  exact ⟨_, _, _, split, by decide +kernel, sends,
    orderly _ _ _ (noted.symm.trans split) sends⟩

end CardLink
