import CardLink.Backend.Loopback
import CardLink.Framing

/-!
# Frames transmitted in pieces

A loopback collects the pieces of a transaction and looks at them when the last one is complete. A piece
for which there is no room is refused, and what was collected before it is dropped. The transaction goes on
after that, though, and the pieces that follow are collected as if they were the start of a frame
(`IsHeld`).

So it makes no difference how a transaction is cut as long as it fits into one frame. Of a larger one
nothing comes back if it is transmitted at once, but its end does come back if the cut leaves a sound frame
behind the last piece that was refused. This is the only way in which a cut is noticed
(`afterPieces_eq_iff`).
-/

namespace CardLink.Loopback

open CardLink.Frame (stateAfter)

/-! ## Transactions of several pieces -/

/-- The endpoint after one more piece of a transaction. -/
def collecting (endpoint : Loopback) (piece : Bytes) : Loopback :=
  stateAfter ((transmit piece false).run endpoint)

/-- The endpoint after a transaction of several pieces, only the last of which is complete. That a piece is
    refused does not keep the others from being transmitted. -/
def afterPieces (endpoint : Loopback) (pieces : List Bytes) (last : Bytes) : Loopback :=
  stateAfter ((transmit last true).run (pieces.foldl collecting endpoint))

/-- `IsHeld pieces held` says that `held` are those of the pieces that an endpoint holds after them: all of
    them if they fit into one frame, and else the ones behind the last for which there was no room beside
    what was held before it. -/
inductive IsHeld : List Bytes → List Bytes → Prop where
  | all {pieces} (fits : pieces.flatten.length ≤ capacity) : IsHeld pieces pieces
  | behind {before earlier refused rest} (held : IsHeld before earlier)
      (full : capacity < earlier.flatten.length + refused.length) (fits : rest.flatten.length ≤ capacity) :
      IsHeld (before ++ refused :: rest) rest

namespace IsHeld

variable {pieces held : List Bytes} {piece : Bytes}

theorem length_le_capacity (holds : IsHeld pieces held) : held.flatten.length ≤ capacity := by
  cases holds with
  | all fits => exact fits
  | behind _ _ fits => exact fits

theorem length_le (holds : IsHeld pieces held) : held.flatten.length ≤ pieces.flatten.length := by
  cases holds with
  | all => exact Nat.le_refl _
  | behind =>
    simp only [List.flatten_append, List.flatten_cons, List.length_append]
    omega

/-- Something was dropped if and only if not everything fits. -/
theorem eq_iff (holds : IsHeld pieces held) : held = pieces ↔ pieces.flatten.length ≤ capacity := by
  constructor
  · rintro rfl
    exact holds.length_le_capacity
  · intro fits
    cases holds with
    | all => rfl
    | behind earlier full =>
      have := earlier.length_le
      simp only [List.flatten_append, List.flatten_cons, List.length_append] at fits
      omega

theorem collect (holds : IsHeld pieces held) (fits : held.flatten.length + piece.length ≤ capacity) :
    IsHeld (pieces ++ [piece]) (held ++ [piece]) := by
  have fits : (held ++ [piece]).flatten.length ≤ capacity := by simpa using fits
  cases holds with
  | all => exact .all fits
  | behind earlier full =>
    rw [List.append_assoc, List.cons_append]
    exact .behind earlier full fits

theorem refuse (holds : IsHeld pieces held) (full : capacity < held.flatten.length + piece.length) :
    IsHeld (pieces ++ [piece]) [] :=
  .behind holds full (Nat.zero_le capacity)

end IsHeld

/-! ## What is sent back -/

/-- A frame that is sent back as `back`: its first byte is replaced by zero, and the check is right. -/
structure Reflects (frame back : Bytes) : Prop where
  nonempty : frame ≠ []
  eq_set : back = frame.set 0 0
  check_eq : Bytes.check back = 0

theorem reflection?_eq_some_iff {frame back : Bytes} :
    reflection? frame = some back ↔ Reflects frame back := by
  cases frame with
  | nil => exact ⟨nofun, fun reflects => absurd rfl reflects.nonempty⟩
  | cons first rest =>
    rw [reflection?, Option.ite_none_right_eq_some, Option.some.injEq]
    constructor
    · rintro ⟨sound, rfl⟩
      exact ⟨List.cons_ne_nil _ _, rfl, sound⟩
    · rintro ⟨-, rfl, sound⟩
      exact ⟨sound, rfl⟩

section Transmission

variable {endpoint : Loopback} {data : Bytes} {complete : Bool} (opened : endpoint.isOpen = true)
include opened

theorem transmit_of_room (room : ¬ endpoint.inbox.length + data.length > capacity) :
    transmit data complete endpoint = .ok data.length
      (if complete then endpoint.delivered (endpoint.inbox ++ data)
        else { endpoint with inbox := endpoint.inbox ++ data }) := by
  simp only [transmit, whenOpen, if_pos opened, if_neg room]

theorem transmit_of_full (full : endpoint.inbox.length + data.length > capacity) :
    transmit data complete endpoint = .error Fault.overflow.error { endpoint with inbox := [] } := by
  simp only [transmit, whenOpen, if_pos opened, if_pos full]

end Transmission

/-- An open endpoint that holds some pieces of a transaction, and has nothing to send back. -/
def holding (position : Nat) (held : List Bytes) : Loopback where
  isOpen := true
  inbox := held.flatten
  position

section Holding

variable {pieces held : List Bytes} {piece : Bytes} {back : Bytes} (position : Nat)

theorem collecting_of_fits (fits : held.flatten.length + piece.length ≤ capacity) :
    (holding position held).collecting piece = holding position (held ++ [piece]) := by
  have room : ¬ (holding position held).inbox.length + piece.length > capacity := Nat.not_lt_of_le fits
  rw [collecting, EStateM.run, transmit_of_room rfl room]
  simp [stateAfter, holding]

theorem collecting_of_full (full : capacity < held.flatten.length + piece.length) :
    (holding position held).collecting piece = holding position [] := by
  rw [collecting, EStateM.run, transmit_of_full rfl full]
  rfl

/-- One more piece is collected, or it is refused and what was held is dropped. -/
theorem exists_isHeld_collecting (holds : IsHeld pieces held) (piece : Bytes) :
    ∃ held', IsHeld (pieces ++ [piece]) held' ∧
      (holding position held).collecting piece = holding position held' := by
  by_cases fits : held.flatten.length + piece.length ≤ capacity
  · exact ⟨_, holds.collect fits, collecting_of_fits position fits⟩
  · have full := Nat.lt_of_not_le fits
    exact ⟨_, holds.refuse full, collecting_of_full position full⟩

theorem exists_isHeld_foldl (holds : IsHeld pieces held) (later : List Bytes) :
    ∃ held', IsHeld (pieces ++ later) held' ∧
      later.foldl collecting (holding position held) = holding position held' := by
  induction later generalizing pieces held with
  | nil => exact ⟨held, by rwa [List.append_nil], rfl⟩
  | cons piece later ih =>
    obtain ⟨next, holds, collects⟩ := exists_isHeld_collecting position holds piece
    obtain ⟨held', holds', ends⟩ := ih holds
    refine ⟨held', by rwa [List.append_assoc] at holds', ?_⟩
    rw [List.foldl_cons, collects, ends]

/-- After the last piece the endpoint looks at what it then holds. -/
theorem stateAfter_transmit (held : List Bytes) (last : Bytes) :
    stateAfter ((transmit last true).run (holding position held)) = (holding position []).delivered
      (if held.flatten.length + last.length ≤ capacity then held.flatten ++ last else []) := by
  by_cases fits : held.flatten.length + last.length ≤ capacity
  · have room : ¬ (holding position held).inbox.length + last.length > capacity := Nat.not_lt_of_le fits
    rw [EStateM.run, transmit_of_room rfl room, if_pos fits]
    rfl
  · have full := Nat.lt_of_not_le fits
    rw [EStateM.run, transmit_of_full rfl full, if_neg fits]
    rfl

theorem afterPieces_eq (pieces : List Bytes) (last : Bytes) : ∃ held, IsHeld (pieces ++ [last]) held ∧
    (holding position []).afterPieces pieces last = (holding position []).delivered held.flatten := by
  obtain ⟨held, holds, collects⟩ :=
    exists_isHeld_foldl position (.all (Nat.zero_le capacity) : IsHeld [] []) pieces
  rw [afterPieces, collects, stateAfter_transmit]
  by_cases fits : held.flatten.length + last.length ≤ capacity
  · exact ⟨_, holds.collect fits, by simp only [if_pos fits, List.flatten_concat]⟩
  · exact ⟨_, holds.refuse (Nat.lt_of_not_le fits), by simp only [if_neg fits, List.flatten_nil]⟩

theorem afterPieces_nil (frame : Bytes) : (holding position []).afterPieces [] frame =
    (holding position []).delivered (if frame.length ≤ capacity then frame else []) := by
  rw [afterPieces, List.foldl_nil, stateAfter_transmit]
  simp

theorem inbox_delivered (endpoint : Loopback) (frame : Bytes) : (endpoint.delivered frame).inbox = [] := by
  rw [delivered]
  split <;> rfl

theorem outbox_delivered (frame : Bytes) :
    ((holding position []).delivered frame).outbox = reflection? frame := by
  rw [delivered]
  split <;> simp_all [holding]

/-- All that is left of a frame is what is sent back. -/
theorem delivered_eq_iff {frame frame' : Bytes} :
    (holding position []).delivered frame = (holding position []).delivered frame' ↔
      reflection? frame = reflection? frame' := by
  constructor
  · intro same
    rw [← outbox_delivered position, same, outbox_delivered]
  · intro same
    rw [delivered, delivered, same]

end Holding

/-! ## Cutting a transaction -/

/-- The pieces of a transaction end as the transaction at once does, exactly if it fits into one frame or
    no sound frame is left behind the last piece that was refused. At once, a transaction is sent back
    exactly if it fits into one frame and is sound; in pieces, what is held of it, if that is sound. -/
theorem afterPieces_eq_iff (position : Nat) (pieces : List Bytes) (last : Bytes) :
    let endpoint : Loopback := { isOpen := true, position }
    let frame := pieces.flatten ++ last
    let cut := endpoint.afterPieces pieces last
    let whole := endpoint.afterPieces [] frame
    ∃ held, IsHeld (pieces ++ [last]) held ∧
      (held = pieces ++ [last] ↔ frame.length ≤ capacity) ∧
      (cut = whole ↔ frame.length ≤ capacity ∨ ¬∃ back, Reflects held.flatten back) ∧
      cut.inbox = [] ∧ whole.inbox = [] ∧
      (∀ back, cut.outbox = some back ↔ Reflects held.flatten back) ∧
      ∀ back, whole.outbox = some back ↔ frame.length ≤ capacity ∧ Reflects frame back := by
  intro endpoint frame cut whole
  obtain ⟨held, holds, ends⟩ := afterPieces_eq position pieces last
  have cut_eq : cut = (holding position []).delivered held.flatten := ends
  have whole_eq : whole = (holding position []).delivered (if frame.length ≤ capacity then frame else []) :=
    afterPieces_nil position frame
  have total : (pieces ++ [last]).flatten = frame := List.flatten_concat
  have all_iff : held = pieces ++ [last] ↔ frame.length ≤ capacity := by rw [holds.eq_iff, total]
  refine ⟨held, holds, all_iff, ?_, ?_, ?_, ?_, ?_⟩
  · rw [cut_eq, whole_eq, delivered_eq_iff]
    by_cases fits : frame.length ≤ capacity
    · rw [if_pos fits, all_iff.mpr fits, total]
      exact iff_of_true rfl (.inl fits)
    · have nothing : reflection? [] = none := rfl
      rw [if_neg fits, nothing]
      simp [fits, Option.eq_none_iff_forall_ne_some, reflection?_eq_some_iff]
  · rw [cut_eq, inbox_delivered]
  · rw [whole_eq, inbox_delivered]
  · intro back
    rw [cut_eq, outbox_delivered, reflection?_eq_some_iff]
  · intro back
    rw [whole_eq, outbox_delivered, reflection?_eq_some_iff]
    by_cases fits : frame.length ≤ capacity
    · simp [fits]
    · simp only [fits, if_false, false_and, iff_false]
      exact fun reflects => reflects.nonempty rfl

/-- A transaction that does not fit into one frame, cut so that a frame is left behind a refused piece. At
    once, nothing of it comes back, but the frame at its end does if it is cut. -/
theorem afterPieces_ne_of_overflow :
    let endpoint : Loopback := { isOpen := true }
    let large : Bytes := List.replicate (capacity + 1) 0
    let last : Bytes := [0xBB, 0x00, 0x02, 0x01, 0x02, 0x01]
    (endpoint.afterPieces [] (large ++ last)).outbox = none ∧
      (endpoint.afterPieces [large] last).outbox = some [0x00, 0x00, 0x02, 0x01, 0x02, 0x01] := by
  decide +kernel

end CardLink.Loopback
