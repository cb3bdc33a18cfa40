import CardLink.Backend.Traced
import CardLink.Proofs.Buffering
import CardLink.Proofs.Failures
import CardLink.Proofs.Listening

/-!
# The calls of an exchange

What an exchange does on its bus, seen in a trace of its calls. Leaving the reads aside, each round
makes two of them (`Exchange.turn`): it transmits one whole frame, and then it polls for the answer.
Nothing else is in the trace, however the calls end (`dialogue_runFor`).
-/

namespace CardLink

def Call.isRead : Call → Bool
  | receive _ _ => true
  | connect | transmit _ _ | poll _ _ _ => false

namespace Traced

variable {σ α : Type}

/-- The calls on a bus, but for those that read from it. -/
def dialogue (t : Traced σ) : List Call := t.calls.filter fun call => !call.isRead

/-- Nothing has been done between two states of a bus but to read from it. -/
def SameDialogue (t t' : Traced σ) : Prop := t'.dialogue = t.dialogue

theorem dialogue_lifting (calls : List Call) (operation : Bus σ α) (t : Traced σ) :
    (Frame.stateAfter ((lifting calls operation).run t)).dialogue =
      t.dialogue ++ calls.filter fun call => !call.isRead := by
  simp only [EStateM.run, lifting]
  cases operation t.bus <;> exact List.filter_append ..

theorem within_lifting {calls : List Call} (reads : calls.filter (fun call => !call.isRead) = [])
    (operation : Bus σ α) : Frame.Within SameDialogue (lifting calls operation) := by
  intro t
  rw [SameDialogue, dialogue_lifting, reads, List.append_nil]

theorem isReading_sameDialogue [Backend σ] :
    Frame.IsReading (SameDialogue : Traced σ → Traced σ → Prop) where
  refl _ := rfl
  trans first second := second.trans first
  receive _ _ := within_lifting rfl _

/-- To wait for a frame is to poll once. -/
theorem dialogue_listen [Backend σ] (o : Options) (timeout : Duration) (t : Traced σ) :
    (Frame.listen o timeout t).2.dialogue = t.dialogue ++ [.poll o.host timeout false] := by
  have polls := dialogue_lifting [.poll o.host timeout false] (Backend.poll o.host timeout false) t
  have reads := isReading_sameDialogue.after_poll o timeout t
  exact Eq.trans reads polls

end Traced

namespace Exchange

open Traced

variable {σ : Type} [Backend σ]

/-- What a round does on the bus, but for its reads. -/
def turn (x : Exchange) (o : Options) : List Call :=
  [.transmit (o.wire x.outgoing) true, .poll o.host (x.timeout o) false]

theorem dialogue_converse (x : Exchange) (o : Options) (t : Traced σ) :
    (x.converse o t).2.dialogue = t.dialogue ++ x.turn o := by
  have wire : (o.outbound x.outgoing.frame).bytes = o.wire x.outgoing := by
    rw [o.bytes_outbound (Frame.isCanonical_frame _), Frame.block_frame]
  have sends := dialogue_lifting [.transmit (o.outbound x.outgoing.frame).bytes true]
    (Backend.transmit (o.outbound x.outgoing.frame).bytes true) t
  have listens := dialogue_listen o (x.timeout o)
    (Frame.stateAfter ((Frame.send o x.outgoing.frame).run t))
  rw [turn, ← wire]
  refine listens.trans ?_
  change (Frame.stateAfter ((lifting _ _).run t)).dialogue ++ _ = _
  rw [sends, List.append_assoc]
  rfl

theorem dialogue_follow (x : Exchange) (v : Verdict) (t : Traced σ) :
    (x.follow v t).2.dialogue = t.dialogue := by
  have resets : Frame.Within SameDialogue (Backend.reset : Bus (Traced σ) Unit) :=
    within_lifting rfl Backend.reset
  rcases x.follow_bus_cases v t with same | ⟨-, reset⟩
  · rw [same]
  · rw [reset]
    exact resets t

theorem dialogue_round {x : Exchange} {o : Options} {t t' : Traced σ} {r : Round Exchange}
    {step : Step Exchange} (next : round o x t = (r, step, t')) :
    t'.dialogue = t.dialogue ++ r.before.turn o := by
  simp only [round, Prod.mk.injEq] at next
  obtain ⟨rfl, goes⟩ := next
  rw [← show _ = t' from congrArg Prod.snd goes, dialogue_follow, dialogue_converse]

/-- Round by round, an exchange transmits a frame and polls for the answer. -/
theorem dialogue_runFor (x : Exchange) (o : Options) (n : Nat) (t : Traced σ) :
    (x.runFor o n t).bus.dialogue =
      t.dialogue ++ (x.runFor o n t).rounds.flatMap fun r => r.before.turn o := by
  obtain ⟨turns, dialogue, each⟩ := Course.exists_entries (round o) Traced.dialogue
    (fun r calls => r.before.turn o = calls) (fun next => ⟨_, dialogue_round next, rfl⟩) n x t
  rw [← List.forall₂_map_left_iff, List.forall₂_eq_eq_eq] at each
  rw [List.flatMap_def]
  exact dialogue.trans (congrArg (fun turns => t.dialogue ++ turns.flatten) each.symm)

end Exchange

end CardLink
