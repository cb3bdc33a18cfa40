import CardLink.Proofs.Decoding

/-!
# Accesses to the buffer of a frame

A frame lives in a buffer of 258 bytes. LEN is one of them and can be set to anything, whatever the
information field, so the place of the check moves over bytes that were left there by other blocks.

Here the changes of a frame are carried out on a bare buffer, where reading or writing outside of it has no
result (`Change.onBuffer`). From a blank frame on, all changes have one, and it is the buffer of the frame
(`bufferAfter?_buffer`). Giving a frame its check changes one byte, makes the check of all its bytes zero,
and makes it decodable as it is, unless LEN is the reserved one (`buffer_of_changes`).
-/

namespace CardLink

/-! ## Checked accesses -/

namespace Bytes

/-- The bytes from `start` up to `stop`, if there are that many. -/
def slice? (buffer : Bytes) (start stop : Nat) : Option Bytes :=
  if start ≤ stop ∧ stop ≤ buffer.length then some ((buffer.take stop).drop start) else none

/-- The buffer with `data` written over it from `start` on, if all of it lies inside. -/
def write? (buffer : Bytes) (start : Nat) (data : Bytes) : Option Bytes :=
  if start + data.length ≤ buffer.length then
    some (buffer.take start ++ data ++ buffer.drop (start + data.length))
  else none

end Bytes

namespace Frame

open Bytes (slice? write?)

/-- The position of the check, which LEN decides. The reserved LEN counts as the largest one. -/
def checkIndex (f : Frame) : Nat := f.infLength + 3

/-- What a reader of a frame looks at lies inside its buffer. -/
structure IsReadable (f : Frame) : Prop where
  len : f.buffer[2]? = some f.len
  content : f.buffer.slice? 0 f.checkIndex = some (f.header ++ f.inf)
  inf : f.buffer.slice? 3 f.checkIndex = some f.inf
  check : f.buffer[f.checkIndex]? = some f.check
  bytes : f.buffer.slice? 0 (f.checkIndex + 1) = some f.bytes

theorem checkIndex_lt (f : Frame) : f.checkIndex < f.buffer.length := by
  have : f.infLength ≤ 254 := f.infLength_le
  rw [length_buffer, checkIndex]
  omega

theorem isReadable (f : Frame) : f.IsReadable where
  len := rfl
  content := if_pos ⟨Nat.zero_le _, Nat.le_of_lt f.checkIndex_lt⟩
  inf := if_pos ⟨Nat.le_add_left .., Nat.le_of_lt f.checkIndex_lt⟩
  check := List.getElem?_eq_getElem f.infLength_lt
  bytes := if_pos ⟨Nat.zero_le _, f.checkIndex_lt⟩

/-! ## Writing into the buffer of a frame -/

theorem write?_nad (f : Frame) (nad : UInt8) : f.buffer.write? 0 [nad] = some (f.addressed nad).buffer :=
  if_pos (by simp)

theorem write?_pcbByte (f : Frame) (pcbByte : UInt8) :
    f.buffer.write? 1 [pcbByte] = some (f.withPcbByte pcbByte).buffer :=
  if_pos (by simp)

theorem write?_len (f : Frame) (len : UInt8) : f.buffer.write? 2 [len] = some (f.withLen len).buffer :=
  if_pos (by simp)

theorem write?_header (f : Frame) : f.buffer.write? 0 [0, 0, 0] = some f.withoutHeader.buffer :=
  if_pos (by simp)

theorem write?_body (f : Frame) {data : Bytes} (fits : data.length ≤ maxInf + 1) :
    f.buffer.write? 3 data = some (f.overwritten data).buffer := by
  have inside : 3 + data.length ≤ f.buffer.length := by
    have : data.length ≤ 255 := fits
    rw [length_buffer]
    omega
  have kept : data.take f.body.length = data := List.take_of_length_le (by rwa [f.body_length])
  rw [Bytes.write?, if_pos inside, Option.some.injEq]
  change _ = f.header ++ (data.take f.body.length ++ f.body.drop data.length)
  rw [kept, Nat.add_comm 3, List.append_assoc]
  rfl

theorem write?_block (f : Frame) (nad pcbByte len : UInt8) {rest : Bytes} (fits : rest.length ≤ maxInf + 1) :
    f.buffer.write? 0 (nad :: pcbByte :: len :: rest) = some (f.received nad pcbByte len rest).buffer := by
  have inside : 0 + (nad :: pcbByte :: len :: rest).length ≤ f.buffer.length := by
    have : rest.length ≤ 255 := fits
    rw [length_buffer]
    simp only [List.length_cons]
    omega
  have kept : rest.take f.body.length = rest := List.take_of_length_le (by rwa [f.body_length])
  rw [Bytes.write?, if_pos inside, Option.some.injEq, Nat.zero_add]
  change _ = [nad, pcbByte, len] ++ (rest.take f.body.length ++ f.body.drop rest.length)
  rw [kept]
  rfl

/-- The check is written to its place, and nowhere else. -/
theorem buffer_checked (f : Frame) : f.checked.buffer = f.buffer.set f.checkIndex f.computedCheck := rfl

theorem write?_check (f : Frame) :
    f.buffer.write? f.checkIndex [f.computedCheck] = some f.checked.buffer := by
  have inside : f.checkIndex + [f.computedCheck].length ≤ f.buffer.length := f.checkIndex_lt
  rw [Bytes.write?, if_pos inside, buffer_checked, List.set_eq_take_append_cons_drop,
    if_pos f.checkIndex_lt, List.append_assoc]
  rfl

/-! ## Changes on a bare buffer -/

/-- The ways to change a frame. The first three make a new one. -/
inductive Change where
  | begin (pcb : Pcb)
  | beginWith (pcb : Pcb) (inf : Bytes)
  | decode (w : Bytes)
  | address (nad : UInt8)
  | setPcb (pcb : Pcb)
  | setPcbByte (pcbByte : UInt8)
  | setLen (len : UInt8)
  | hold (inf : Bytes)
  | load (inf : Bytes)
  | check
  | invalidate
  | clearHeader

/-- The frame that a change leads to, unless it is refused. -/
def Change.on (f : Frame) : Change → Except Error Frame
  | begin pcb => .ok (blank.withPcb pcb)
  | beginWith pcb inf => (blank.withPcb pcb).holding inf
  | decode w => Frame.decode w
  | address nad => .ok (f.addressed nad)
  | setPcb pcb => .ok (f.withPcb pcb)
  | setPcbByte pcbByte => .ok (f.withPcbByte pcbByte)
  | setLen len => .ok (f.withLen len)
  | hold inf => f.holding inf
  | load inf => .ok (f.loaded inf)
  | check => .ok f.checked
  | invalidate => .ok absent
  | clearHeader => .ok f.withoutHeader

/-- A change that is refused leaves the frame as it was. -/
def after (f : Frame) (changes : List Change) : Frame :=
  changes.foldl (fun f change => (change.on f).toOption.getD f) f

section Buffer

def blankBuffer : Bytes := List.replicate 258 0

def checkIndex? (buffer : Bytes) : Option Nat := do
  let len ← buffer[2]?
  return min len.toNat maxInf + 3

def computedCheck? (buffer : Bytes) : Option UInt8 := do
  let content ← buffer.slice? 0 (← checkIndex? buffer)
  return Bytes.check content

/-- Writes an information field and its length, as much as one block holds. -/
def load? (buffer inf : Bytes) : Option Bytes := do
  let inf := inf.take maxInf
  let buffer ← buffer.write? 3 inf
  buffer.write? 2 [UInt8.ofNat inf.length]

def hold? (buffer inf : Bytes) : Option (Except Error Bytes) :=
  if inf.length ≤ maxInf then (load? buffer inf).map .ok
  else some (.error (.invalidLength maxInf inf.length))

def check? (buffer : Bytes) : Option Bytes := do
  buffer.write? (← checkIndex? buffer) [← computedCheck? buffer]

/-- A buffer is accepted if the check that it carries is the one of its content. -/
def verify? (buffer : Bytes) : Option (Except Error Bytes) := do
  let expected ← computedCheck? buffer
  let actual ← buffer[← checkIndex? buffer]?
  return if expected = actual then .ok buffer else .error (.checksumMismatch expected actual)

/-- Copies a byte string of the right length into a new buffer, and verifies it there. -/
def decode? (w : Bytes) : Option (Except Error Bytes) :=
  if w.length < 4 then some (.error (.invalidLength 4 w.length))
  else
    w[2]?.bind fun len =>
      if len = 255 then some (.error reservedLen)
      else if w.length ≠ len.toNat + 4 then some (.error (.invalidLength (len.toNat + 4) w.length))
      else (blankBuffer.write? 0 w).bind verify?

/-- What a change makes of a bare buffer. It has no result if it reads or writes outside of it. -/
def Change.onBuffer (buffer : Bytes) : Change → Option (Except Error Bytes)
  | begin pcb => (blankBuffer.write? 1 [pcb.toByte]).map .ok
  | beginWith pcb inf => (blankBuffer.write? 1 [pcb.toByte]).bind fun buffer => hold? buffer inf
  | decode w => decode? w
  | address nad => (buffer.write? 0 [nad]).map .ok
  | setPcb pcb => (buffer.write? 1 [pcb.toByte]).map .ok
  | setPcbByte pcbByte => (buffer.write? 1 [pcbByte]).map .ok
  | setLen len => (buffer.write? 2 [len]).map .ok
  | hold inf => hold? buffer inf
  | load inf => (load? buffer inf).map .ok
  | check => (check? buffer).map .ok
  | invalidate => some (.ok (List.replicate buffer.length Pcb.sentinel))
  | clearHeader => (buffer.write? 0 [0, 0, 0]).map .ok

/-- A bare buffer after some changes, none of which reads or writes outside of it. -/
def bufferAfter? (buffer : Bytes) : List Change → Option Bytes
  | [] => some buffer
  | change :: later =>
    (change.onBuffer buffer).bind fun result => bufferAfter? (result.toOption.getD buffer) later

end Buffer

/-! ## No access outside -/

theorem buffer_blank : blank.buffer = blankBuffer := rfl

theorem buffer_absent : absent.buffer = List.replicate 258 Pcb.sentinel := rfl

theorem checkIndex?_buffer (f : Frame) : checkIndex? f.buffer = some f.checkIndex := rfl

theorem computedCheck?_buffer (f : Frame) : computedCheck? f.buffer = some f.computedCheck := by
  rw [computedCheck?, checkIndex?_buffer]
  simp only [Option.bind_eq_bind, Option.bind_some, f.isReadable.content]
  rfl

theorem load?_buffer (f : Frame) (inf : Bytes) : load? f.buffer inf = some (f.loaded inf).buffer := by
  have fits : (inf.take maxInf).length ≤ maxInf + 1 :=
    Nat.le_succ_of_le (List.length_take_le ..)
  simp only [load?, write?_body f fits, Option.bind_eq_bind, Option.bind_some, write?_len]
  rfl

theorem hold?_buffer (f : Frame) (inf : Bytes) :
    hold? f.buffer inf = some ((f.holding inf).map buffer) := by
  by_cases fits : inf.length ≤ maxInf
  · simp [hold?, holding, fits, load?_buffer, Except.map]
  · simp [hold?, holding, fits, Except.map]

theorem check?_buffer (f : Frame) : check? f.buffer = some f.checked.buffer := by
  simp only [check?, checkIndex?_buffer, computedCheck?_buffer, Option.bind_eq_bind, Option.bind_some,
    write?_check]

theorem verify?_buffer (f : Frame) : verify? f.buffer = some
    (if f.computedCheck = f.check then .ok f.buffer
      else .error (.checksumMismatch f.computedCheck f.check)) := by
  simp only [verify?, checkIndex?_buffer, computedCheck?_buffer, f.isReadable.check, Option.bind_eq_bind,
    Option.bind_some]
  rfl

theorem decode?_eq (w : Bytes) : decode? w = some ((Frame.decode w).map buffer) := by
  match w with
  | [] | [_] | [_, _] | [_, _, _] => rfl
  | nad :: pcbByte :: len :: first :: rest =>
    have long : ¬ (nad :: pcbByte :: len :: first :: rest).length < 4 := by simp
    have length_iff : (nad :: pcbByte :: len :: first :: rest).length = len.toNat + 4 ↔
        rest.length = len.toNat := by simp
    rw [decode?, if_neg long]
    change (if len = 255 then _ else _) = _
    by_cases reserved : len = 255
    · subst reserved
      rfl
    rw [if_neg reserved]
    by_cases length : rest.length = len.toNat
    · have fits : (first :: rest).length ≤ maxInf + 1 := by
        rw [List.length_cons, length]
        exact Nat.succ_le_succ (toNat_le_maxInf_iff.mpr reserved)
      rw [if_neg (not_not.mpr (length_iff.mpr length)), ← buffer_blank,
        write?_block blank nad pcbByte len fits, Option.bind_some, verify?_buffer,
        decode_of_length nad pcbByte first reserved length]
      split <;> rfl
    · rw [if_pos (length_iff.not.mpr length), Frame.decode, if_neg reserved, if_pos length]
      simp [Except.map]

/-- A change of a frame changes its buffer, without an access outside of it. -/
theorem onBuffer_buffer (f : Frame) (change : Change) :
    change.onBuffer f.buffer = some ((change.on f).map buffer) := by
  cases change with
  | begin pcb => rw [Change.onBuffer, ← buffer_blank, write?_pcbByte]; rfl
  | beginWith pcb inf =>
    rw [Change.onBuffer, ← buffer_blank, write?_pcbByte, Option.bind_some, hold?_buffer]
    rfl
  | decode w => exact decode?_eq w
  | address nad => rw [Change.onBuffer, write?_nad]; rfl
  | setPcb pcb => rw [Change.onBuffer, write?_pcbByte]; rfl
  | setPcbByte pcbByte => rw [Change.onBuffer, write?_pcbByte]; rfl
  | setLen len => rw [Change.onBuffer, write?_len]; rfl
  | hold inf => exact hold?_buffer f inf
  | load inf => rw [Change.onBuffer, load?_buffer]; rfl
  | check => rw [Change.onBuffer, check?_buffer]; rfl
  | invalidate => rw [Change.onBuffer, length_buffer, ← buffer_absent]; rfl
  | clearHeader => rw [Change.onBuffer, write?_header]; rfl

theorem bufferAfter?_buffer (f : Frame) (changes : List Change) :
    bufferAfter? f.buffer changes = some (f.after changes).buffer := by
  induction changes generalizing f with
  | nil => rfl
  | cons change later ih =>
    rw [bufferAfter?, onBuffer_buffer, Option.bind_some]
    cases result : change.on f with
    | ok g =>
      have goes : f.after (change :: later) = g.after later := by simp [after, result, Except.toOption]
      rw [goes]
      exact ih g
    | error e =>
      have stays : f.after (change :: later) = f.after later := by simp [after, result, Except.toOption]
      rw [stays]
      exact ih f

/-! ## Giving a frame its check -/

theorem checked_checked (f : Frame) : f.checked.checked = f.checked := f.checked_addressed_checked f.nad

theorem check_bytes_checked (f : Frame) : Bytes.check f.checked.bytes = 0 := by
  rw [bytes_checked, computedCheck_eq, Bytes.check_concat_check]

theorem isSound_checked_iff (f : Frame) : f.checked.isSound = true ↔ f.len.toNat ≤ maxInf := by
  rw [isSound_iff, check_bytes_checked]
  exact and_iff_left rfl

/-- Frames of the same bytes show the same header and information field. -/
theorem fields_of_bytes {f g : Frame} (same : g.bytes = f.bytes) :
    g.nad = f.nad ∧ g.pcbByte = f.pcbByte ∧ g.len = f.len ∧ g.inf = f.inf := by
  rw [bytes_eq_concat, bytes_eq_concat] at same
  obtain ⟨content, -⟩ := List.append_inj' same rfl
  simpa using content

/-- A frame with its check is decoded as it is, unless its LEN is the reserved one. -/
theorem decode_checked_iff (f : Frame) :
    (∃ g, decode f.checked.bytes = .ok g ∧ g.nad = f.nad ∧ g.pcbByte = f.pcbByte ∧ g.len = f.len ∧
      g.inf = f.inf) ↔ f.len.toNat ≤ maxInf := by
  rw [← isSound_checked_iff, ← isBlock_bytes_iff, ← isBlock_iff]
  constructor
  · rintro ⟨g, decoded, -⟩
    exact ⟨g, decoded⟩
  · rintro ⟨g, decoded⟩
    have fields := fields_of_bytes (bytes_of_decode decoded)
    rw [inf_checked] at fields
    exact ⟨g, decoded, fields⟩

/-- Whatever was done to a frame, no change has read or written outside of its 258 bytes, nor does a reader.
    The frame shows as many bytes as LEN says, up to the largest LEN. Its check can be written over the one
    byte that is its place, once and for all, and then the frame is sound and can be decoded, unless LEN is
    the reserved one. -/
theorem buffer_of_changes (changes : List Change) :
    let f := blank.after changes
    bufferAfter? (List.replicate 258 0) changes = some f.buffer ∧ f.buffer.length = 258 ∧ f.IsReadable ∧
      f.bytes.length = min f.len.toNat 254 + 4 ∧
      (∀ i, i ≠ 3 + min f.len.toNat 254 → f.checked.buffer[i]? = f.buffer[i]?) ∧
      f.checked.checked = f.checked ∧ Bytes.check f.checked.bytes = 0 ∧
      (f.checked.isSound = true ↔ f.len.toNat ≤ 254) ∧
      ((∃ g, decode f.checked.bytes = .ok g ∧ g.nad = f.nad ∧ g.pcbByte = f.pcbByte ∧ g.len = f.len ∧
        g.inf = f.inf) ↔ f.len.toNat ≤ 254) := by
  intro f
  refine ⟨bufferAfter?_buffer blank changes, f.length_buffer, f.isReadable, f.length_bytes, ?_,
    f.checked_checked, f.check_bytes_checked, f.isSound_checked_iff, f.decode_checked_iff⟩
  intro i elsewhere
  have other : f.checkIndex ≠ i := by
    rw [checkIndex, Nat.add_comm]
    exact elsewhere.symm
  rw [buffer_checked, List.getElem?_set_ne other]

end Frame

end CardLink
