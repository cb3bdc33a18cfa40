import CardLink.Framing

/-!
# What listening does to a bus

To receive a frame takes several operations on the bus, and each of them may fail. `Frame.Within` says of
an operation that it leaves every bus in a certain relation to what it was before, whether it succeeds or
fails. A relation that no single read breaks (`IsReading`) is not broken by all that a host does after a
poll (`IsReading.receiveRest`), and if polls do not break it either, it holds when the host has waited for
a frame (`IsReading.listen`).
-/

namespace CardLink.Frame

variable {σ α β : Type}

/-- However an operation ends, the bus after it is related to the bus before. -/
def Within (related : σ → σ → Prop) (operation : Bus σ α) : Prop :=
  ∀ bus, related bus (stateAfter (operation.run bus))

/-- A relation that a read does not break. -/
structure IsReading [Backend σ] (related : σ → σ → Prop) : Prop where
  refl : ∀ bus, related bus bus
  trans : ∀ {bus bus' bus''}, related bus bus' → related bus' bus'' → related bus bus''
  receive : ∀ room complete, Within related (Backend.receive room complete : Bus σ Reading)

namespace IsReading

variable [Backend σ] {related : σ → σ → Prop} (reading : IsReading related)
include reading

theorem within_pure (a : α) : Within related (pure a : Bus σ α) := reading.refl

theorem within_throw (e : Error) : Within related (throw e : Bus σ α) := reading.refl

theorem within_bind {operation : Bus σ α} {rest : α → Bus σ β} (first : Within related operation)
    (second : ∀ a, Within related (rest a)) : Within related (operation >>= rest) := by
  intro bus
  have before := first bus
  rw [EStateM.run_bind]
  cases result : operation.run bus with
  | ok a bus' =>
    rw [result] at before
    exact reading.trans before (second a bus')
  | error e bus' =>
    rw [result] at before
    exact before

theorem within_release : Within related (release : Bus σ Unit) :=
  reading.within_bind (reading.receive 0 true) fun _ => reading.within_pure ()

theorem within_releaseAndThrow (failure : Error) :
    Within related (releaseAndThrow failure : Bus σ α) :=
  reading.within_bind reading.within_release fun _ => reading.within_throw failure

/-- A read that fails is followed by one that releases the bus. -/
theorem within_guardedRead (room : Nat) (complete : Bool) :
    Within related (guardedRead room complete : Bus σ Reading) := by
  intro bus
  have reads := reading.receive room complete bus
  simp only [EStateM.run] at reads
  simp only [EStateM.run, guardedRead]
  cases result : (Backend.receive room complete : Bus σ Reading) bus with
  | ok count bus' =>
    rw [result] at reads
    exact reads
  | error failure bus' =>
    rw [result] at reads
    have releases := reading.within_release bus'
    simp only [EStateM.run] at releases
    cases released : (release : Bus σ Unit) bus' <;> rw [released] at releases <;>
      simp only [released] <;> exact reading.trans reads releases

theorem receiveRest (o : Options) (f : Frame) : Within related (receiveRest o f : Bus σ Frame) := by
  refine reading.within_bind (reading.within_guardedRead 2 false) fun start => ?_
  dsimp only
  split
  · exact reading.within_releaseAndThrow _
  split
  · exact reading.within_releaseAndThrow _
  · refine reading.within_bind (reading.within_guardedRead _ true) fun rest => ?_
    split
    · exact reading.within_pure _
    · exact reading.within_throw _

/-- After its poll, a host that waits for a frame does nothing but read. -/
theorem after_poll (o : Options) (timeout : Duration) (bus : σ) :
    related (stateAfter ((Backend.poll o.host timeout false : Bus σ PollResult).run bus))
      (Frame.listen o timeout bus).2 := by
  unfold Frame.listen Frame.receive
  rw [EStateM.run_bind]
  cases (Backend.poll o.host timeout false : Bus σ PollResult).run bus with
  | error e bus' => exact reading.refl bus'
  | ok seen bus' =>
    cases seen with
    | timedOut => exact reading.refl bus'
    | matched =>
      have reads := reading.receiveRest o absent bus'
      dsimp only
      cases result : (Frame.receiveRest o absent).run bus' <;> rwa [result] at reads

/-- A failure to receive is no failure to listen. -/
theorem listen (polls : ∀ nad timeout complete, Within related (Backend.poll nad timeout complete))
    (o : Options) (timeout : Duration) (bus : σ) : related bus (listen o timeout bus).2 :=
  reading.trans (polls o.host timeout false bus) (reading.after_poll o timeout bus)

end IsReading

end CardLink.Frame
