import CardLink.Exchange.Reaction

/-!
# Two buffers

The host keeps two blocks: the reference, and the block that is to be sent in its place or after it.
They lie in two buffers that are used again and again. When a new reference has been prepared, the
buffers change their parts; nothing is copied, and each buffer keeps the bytes of the blocks that it
held before.
-/

namespace CardLink

/-- Two frame buffers, one of which holds the reference. -/
structure Buffers where
  left : Frame := .blank
  right : Frame := .blank
  -- The reference is in the right buffer
  crossed : Bool := false
deriving DecidableEq

namespace Buffers

def reference (b : Buffers) : Frame := if b.crossed then b.right else b.left

def spare (b : Buffers) : Frame := if b.crossed then b.left else b.right

def withReference (b : Buffers) (f : Frame) : Buffers :=
  if b.crossed then { b with right := f } else { b with left := f }

def withSpare (b : Buffers) (f : Frame) : Buffers :=
  if b.crossed then { b with left := f } else { b with right := f }

def swapped (b : Buffers) : Buffers := { b with crossed := !b.crossed }

@[simp] theorem reference_withReference (b : Buffers) (f : Frame) :
    (b.withReference f).reference = f := by
  cases h : b.crossed <;> simp [withReference, reference, h]

@[simp] theorem reference_withSpare (b : Buffers) (f : Frame) :
    (b.withSpare f).reference = b.reference := by
  cases h : b.crossed <;> simp [withSpare, reference, h]

@[simp] theorem spare_withSpare (b : Buffers) (f : Frame) : (b.withSpare f).spare = f := by
  cases h : b.crossed <;> simp [withSpare, spare, h]

@[simp] theorem spare_withReference (b : Buffers) (f : Frame) :
    (b.withReference f).spare = b.spare := by
  cases h : b.crossed <;> simp [withReference, spare, h]

@[simp] theorem reference_swapped (b : Buffers) : b.swapped.reference = b.spare := by
  cases h : b.crossed <;> simp [swapped, reference, spare, h]

@[simp] theorem spare_swapped (b : Buffers) : b.swapped.spare = b.reference := by
  cases h : b.crossed <;> simp [swapped, reference, spare, h]

end Buffers

/-- A buffer once the block of a reaction was prepared in it, if the reaction sends one. -/
def Reaction.prepare (reaction : Reaction) (f : Frame) : Frame :=
  match reaction.block? with
  | some b => f.prepared b
  | none => f

end CardLink
