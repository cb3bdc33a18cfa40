/-!
# Byte strings

The words every other module shares: a byte string, writing over the start of a buffer, cutting a
string into chunks, and the longitudinal redundancy check that closes a block.

The check is the exclusive or of all bytes, so a string followed by its own check has check zero.
-/

namespace CardLink

abbrev Bytes := List UInt8

namespace Bytes

/-! ## Writing into a buffer -/

/-- `overlay fresh old` is the buffer `old` after `fresh` was written over its start. What does not
    fit is dropped, so the buffer keeps its size. -/
def overlay (fresh old : Bytes) : Bytes :=
  fresh.take old.length ++ old.drop fresh.length

@[simp] theorem length_overlay (fresh old : Bytes) : (overlay fresh old).length = old.length := by
  simp only [overlay, List.length_append, List.length_take, List.length_drop]
  omega

theorem take_overlay {fresh old : Bytes} (fits : fresh.length ≤ old.length) :
    (overlay fresh old).take fresh.length = fresh := by
  simp [overlay, List.take_of_length_le fits]

/-! ## Chunks -/

/-- Cuts a string into pieces of `width` bytes, the last one possibly shorter. A width of zero
    counts as one. -/
def chunks (width : Nat) (bytes : Bytes) : List Bytes :=
  match bytes with
  | [] => []
  | first :: rest =>
    (first :: rest).take (max 1 width) :: chunks width ((first :: rest).drop (max 1 width))
termination_by bytes.length
decreasing_by simp only [List.length_drop, List.length_cons]; omega

theorem flatten_chunks (width : Nat) (bytes : Bytes) : (chunks width bytes).flatten = bytes := by
  induction bytes using chunks.induct width with
  | case1 => simp [chunks]
  | case2 first rest ih => rw [chunks, List.flatten_cons, ih, List.take_append_drop]

theorem length_le_of_mem_chunks {width : Nat} (pos : 1 ≤ width) {bytes piece : Bytes}
    (member : piece ∈ chunks width bytes) : piece.length ≤ width := by
  induction bytes using chunks.induct width with
  | case1 => simp [chunks] at member
  | case2 first rest ih =>
    rw [chunks, List.mem_cons] at member
    rcases member with rfl | later
    · rw [Nat.max_eq_right pos]
      exact List.length_take_le ..
    · exact ih later

/-! ## Redundancy check -/

/-- The longitudinal redundancy check: the exclusive or of all bytes. -/
def check (bytes : Bytes) : UInt8 :=
  bytes.foldr (· ^^^ ·) 0

@[simp] theorem check_nil : check [] = 0 := rfl

@[simp] theorem check_cons (byte : UInt8) (bytes : Bytes) :
    check (byte :: bytes) = byte ^^^ check bytes := rfl

theorem check_append (left right : Bytes) :
    check (left ++ right) = check left ^^^ check right := by
  induction left with
  | nil => simp
  | cons byte rest ih => simp [ih, UInt8.xor_assoc]

theorem check_concat (bytes : Bytes) (byte : UInt8) :
    check (bytes ++ [byte]) = check bytes ^^^ byte := by
  rw [check_append, check_cons, check_nil, UInt8.xor_zero]

/-- Changing one byte changes the check by the difference between the two. -/
theorem check_set {bytes : Bytes} {i : Nat} (within : i < bytes.length) (byte : UInt8) :
    check (bytes.set i byte) = check bytes ^^^ (bytes[i] ^^^ byte) := by
  induction bytes generalizing i with
  | nil => exact absurd within (Nat.not_lt_zero i)
  | cons first rest ih =>
    cases i with
    | zero =>
      simp only [List.set_cons_zero, check_cons, List.getElem_cons_zero]
      rw [UInt8.xor_comm first, UInt8.xor_assoc, ← UInt8.xor_assoc first, UInt8.xor_self,
        UInt8.zero_xor, UInt8.xor_comm]
    | succ i =>
      simp only [List.set_cons_succ, check_cons, List.getElem_cons_succ, UInt8.xor_assoc]
      rw [ih (Nat.lt_of_succ_lt_succ within)]

/-- A string with its own check behind it has the check zero. -/
theorem check_concat_check (bytes : Bytes) : check (bytes ++ [check bytes]) = 0 := by
  rw [check_concat, UInt8.xor_self]

end Bytes

end CardLink
