import CardLink.Block
import CardLink.Frame.Codec
import CardLink.Options.Basic

/-!
# What a buffer shows of its blocks

A block is prepared in a buffer that may hold anything, and addressed and given its check when it is
sent. What goes over the wire depends on nothing but the block: the bytes left from earlier blocks are
either written over or lie behind the check, where LEN does not reach.

A frame is *canonical* if it could have been made by preparing a block. `wire` is what goes over the
wire for a block, and `bytes_outbound` says that this is what is sent of every canonical frame.

Encoding puts a block into a blank frame and sends that, so it gives the wire form too (`encode_eq`).

On the other side, a frame has the bytes that were read into its buffer (`bytes_received`), and it is sound
if the check of all of them is zero (`isSound_iff`).
-/

namespace CardLink

namespace Frame

/-! ## Canonical frames -/

/-- The control byte has no reserved bits, and LEN is in range. -/
def IsCanonical (f : Frame) : Prop :=
  f.pcbByte = f.pcb.toByte ∧ f.len.toNat ≤ maxInf

theorem infLength_of_le {f : Frame} (inRange : f.len.toNat ≤ maxInf) : f.infLength = f.len.toNat :=
  Nat.min_eq_left inRange

theorem toNat_ofNat_length {inf : Bytes} (fits : inf.length ≤ maxInf) :
    (UInt8.ofNat inf.length).toNat = inf.length := by
  have : maxInf = 254 := rfl
  rw [UInt8.toNat_ofNat']
  exact Nat.mod_eq_of_lt (by omega)

/-- A LEN is in range unless it is the reserved one. -/
theorem toNat_le_maxInf_iff {len : UInt8} : len.toNat ≤ maxInf ↔ len ≠ 255 := by
  have : maxInf = 254 := rfl
  have : len.toNat < 256 := len.toNat_lt
  have reserved : len = 255 ↔ len.toNat = 255 := UInt8.toNat_inj.symm
  rw [ne_eq, reserved]
  omega

theorem len_prepared (f : Frame) (b : Block) :
    (f.prepared b).len = UInt8.ofNat b.inf.length := by
  rw [prepared, loaded, List.take_of_length_le b.inf_length_le]

theorem pcbByte_prepared (f : Frame) (b : Block) : (f.prepared b).pcbByte = b.pcb.toByte := rfl

theorem pcb_prepared (f : Frame) (b : Block) : (f.prepared b).pcb = b.pcb := by
  rw [pcb, pcbByte_prepared, Pcb.ofByte_toByte]

theorem infLength_prepared (f : Frame) (b : Block) : (f.prepared b).infLength = b.inf.length := by
  have length : (f.prepared b).len.toNat = b.inf.length := by
    rw [len_prepared, toNat_ofNat_length b.inf_length_le]
  rw [infLength_of_le (by rw [length]; exact b.inf_length_le), length]

theorem inf_prepared (f : Frame) (b : Block) : (f.prepared b).inf = b.inf := by
  have fits : b.inf.length ≤ f.body.length := by
    rw [f.body_length]
    exact Nat.le_succ_of_le b.inf_length_le
  have body : (f.prepared b).body = b.inf.overlay f.body := by
    rw [prepared, loaded, List.take_of_length_le b.inf_length_le]
    rfl
  rw [inf, infLength_prepared, body, Bytes.take_overlay fits]

/-- A buffer shows the block that was prepared in it, whatever it held before. -/
@[simp] theorem block_prepared (f : Frame) (b : Block) : (f.prepared b).block = b := by
  cases b
  simp only [block, inf_prepared, pcb_prepared]

theorem isCanonical_prepared (f : Frame) (b : Block) : (f.prepared b).IsCanonical := by
  refine ⟨?_, ?_⟩
  · rw [pcb_prepared, pcbByte_prepared]
  · rw [len_prepared, toNat_ofNat_length b.inf_length_le]
    exact b.inf_length_le

@[simp] theorem block_frame (b : Block) : b.frame.block = b := block_prepared blank b

theorem isCanonical_frame (b : Block) : b.frame.IsCanonical := isCanonical_prepared blank b

/-! ## Addresses and checks -/

@[simp] theorem inf_addressed (f : Frame) (nad : UInt8) : (f.addressed nad).inf = f.inf := rfl

@[simp] theorem inf_checked (f : Frame) : f.checked.inf = f.inf := by
  change (f.body.set f.infLength f.computedCheck).take f.infLength = f.body.take f.infLength
  exact List.take_set_of_le (Nat.le_refl _)

@[simp] theorem block_addressed (f : Frame) (nad : UInt8) : (f.addressed nad).block = f.block := rfl

@[simp] theorem block_checked (f : Frame) : f.checked.block = f.block := by
  have : f.checked.pcb = f.pcb := rfl
  simp only [block, this, inf_checked]

theorem computedCheck_eq (f : Frame) :
    f.computedCheck = Bytes.check (f.nad :: f.pcbByte :: f.len :: f.inf) := rfl

theorem bytes_addressed (f : Frame) (nad : UInt8) :
    (f.addressed nad).bytes = nad :: f.bytes.tail := rfl

theorem bytes_eq_concat (f : Frame) :
    f.bytes = f.nad :: f.pcbByte :: f.len :: f.inf ++ [f.check] := by
  change f.header ++ f.body.take (f.infLength + 1) = _
  rw [List.take_succ_eq_append_getElem f.infLength_lt]
  rfl

@[simp] theorem check_checked (f : Frame) : f.checked.check = f.computedCheck :=
  List.getElem_set_self ..

/-- A frame with its check goes over the wire as header, information field and check. -/
theorem bytes_checked (f : Frame) :
    f.checked.bytes = f.nad :: f.pcbByte :: f.len :: f.inf ++ [f.computedCheck] := by
  rw [bytes_eq_concat, inf_checked, check_checked]
  rfl

/-- A block that is put into a blank frame leaves it as its wire form. -/
theorem bytes_checked_frame (nad : UInt8) (b : Block) :
    (b.frame.addressed nad).checked.bytes = wire nad b.pcb b.inf := by
  have len : b.frame.len = UInt8.ofNat b.inf.length := len_prepared blank b
  have inf : b.frame.inf = b.inf := inf_prepared blank b
  rw [bytes_checked, computedCheck_eq, inf_addressed, inf, wire]
  simp only [addressed, len]
  rfl

theorem encode_block (nad : UInt8) (b : Block) : encode nad b.pcb b.inf = .ok (wire nad b.pcb b.inf) := by
  rw [encode, holding, if_pos b.inf_length_le, ← bytes_checked_frame]
  rfl

/-- Exactly what fits into a block is encoded, and as its wire form. -/
theorem encode_eq (nad : UInt8) (pcb : Pcb) (inf : Bytes) : encode nad pcb inf =
    if inf.length ≤ maxInf then .ok (wire nad pcb inf) else .error (.invalidLength maxInf inf.length) := by
  by_cases fits : inf.length ≤ maxInf
  · rw [if_pos fits]
    exact encode_block nad ⟨pcb, inf, fits⟩
  · rw [encode, holding, if_neg fits, if_neg fits]
    rfl

/-- A check takes the place of the check that the frame had before, under whatever address. -/
theorem checked_addressed_checked (f : Frame) (nad : UInt8) :
    (f.checked.addressed nad).checked = (f.addressed nad).checked := by
  have same : (f.checked.addressed nad).computedCheck = (f.addressed nad).computedCheck := by
    simp only [computedCheck_eq, inf_addressed, inf_checked]
    rfl
  have body : (f.checked.addressed nad).checked.body = (f.addressed nad).checked.body := by
    change (f.body.set f.infLength f.computedCheck).set f.infLength _ = f.body.set f.infLength _
    rw [List.set_set, same]
  exact (Frame.mk.injEq ..).mpr ⟨rfl, rfl, rfl, body⟩

/-- The check that a frame carries is right if and only if the check of all its bytes is zero. -/
theorem check_bytes_eq_zero_iff (f : Frame) : Bytes.check f.bytes = 0 ↔ f.computedCheck = f.check := by
  rw [bytes_eq_concat, Bytes.check_concat, UInt8.xor_eq_zero_iff, computedCheck_eq]

theorem isSound_iff {f : Frame} :
    f.isSound = true ↔ f.len.toNat ≤ maxInf ∧ Bytes.check f.bytes = 0 := by
  rw [check_bytes_eq_zero_iff, isSound, Bool.and_eq_true, decide_eq_true_eq, beq_iff_eq]

/-! ## Reading into a buffer -/

/-- The frame that a reader makes of a header and of what follows it. -/
def received (base : Frame) (nad pcbByte len : UInt8) (rest : Bytes) : Frame :=
  { base.overwritten rest with nad, pcbByte, len }

/-- Whatever the buffer held before, the frame has the bytes that were read. -/
theorem bytes_received (base : Frame) (nad pcbByte : UInt8) {len : UInt8} {rest : Bytes}
    (inRange : len.toNat ≤ maxInf) (length : rest.length = len.toNat + 1) :
    (base.received nad pcbByte len rest).bytes = nad :: pcbByte :: len :: rest := by
  have infLength : (base.received nad pcbByte len rest).infLength = len.toNat := infLength_of_le inRange
  have fits : rest.length ≤ base.body.length := by
    rw [base.body_length]
    omega
  have body : (rest.overlay base.body).take rest.length = rest := Bytes.take_overlay fits
  rw [bytes, infLength, ← length]
  exact congrArg (nad :: pcbByte :: len :: ·) body

end Frame

/-! ## On the wire -/

/-- What goes over the wire for a block. -/
def Options.wire (o : Options) (b : Block) : Bytes :=
  let content := b.pcb.toByte :: UInt8.ofNat b.inf.length :: b.inf
  o.node :: content ++ [Bytes.check ((if o.convention.isSome then 0 else o.node) :: content)]

namespace Options

/-- The node address over which the check of an outbound frame is computed. -/
def checkedNode (o : Options) : UInt8 := if o.convention.isSome then 0 else o.node

/-- A frame goes out with one check, whatever checks were put into it on the way. -/
theorem outbound_eq (o : Options) (f : Frame) :
    o.outbound f = (f.addressed o.checkedNode).checked.addressed o.node := by
  unfold outbound underConvention checkedNode
  cases o.convention with
  | none => rfl
  | some convention =>
    cases convention
    exact congrArg (Frame.addressed · o.node) (Frame.checked_addressed_checked (f.addressed o.node) 0)

/-- A frame that was sent is ready to be sent again. -/
theorem outbound_outbound (o : Options) (f : Frame) : o.outbound (o.outbound f) = o.outbound f := by
  simp only [outbound_eq]
  exact congrArg (Frame.addressed · o.node)
    (Frame.checked_addressed_checked (f.addressed o.checkedNode) o.checkedNode)

/-- Whatever a frame held before, it goes over the wire as its control byte, LEN and information field,
    between the address and the check. -/
theorem bytes_outbound_eq (o : Options) (f : Frame) :
    (o.outbound f).bytes = o.node :: f.pcbByte :: f.len :: f.inf ++
      [Bytes.check (o.checkedNode :: f.pcbByte :: f.len :: f.inf)] := by
  rw [outbound_eq, Frame.bytes_addressed, Frame.bytes_checked, Frame.computedCheck_eq]
  rfl

/-- A convention rewrites the address and the check of a frame, and leaves what the frame says. -/
@[simp] theorem block_underConvention (o : Options) (direction : Direction) (f : Frame) :
    (o.underConvention direction f).block = f.block := by
  unfold underConvention
  split <;> simp

@[simp] theorem block_outbound (o : Options) (f : Frame) : (o.outbound f).block = f.block := by
  simp [outbound]

theorem pcbByte_outbound (o : Options) (f : Frame) : (o.outbound f).pcbByte = f.pcbByte := by
  rw [outbound_eq]
  rfl

theorem len_outbound (o : Options) (f : Frame) : (o.outbound f).len = f.len := by
  rw [outbound_eq]
  rfl

/-- The node address over which the check of an inbound frame is computed. -/
def checkedHost (o : Options) : UInt8 := if o.convention.isSome then 0 else o.host

theorem underConvention_received (o : Options) (base : Frame) (pcbByte len : UInt8) (rest : Bytes) :
    o.underConvention .receive (base.received o.host pcbByte len rest) =
      base.received o.checkedHost pcbByte len rest := by
  unfold underConvention checkedHost
  cases o.convention with
  | none => rfl
  | some convention =>
    cases convention
    rfl

theorem isCanonical_outbound (o : Options) {f : Frame} (canonical : f.IsCanonical) :
    (o.outbound f).IsCanonical := by
  refine ⟨?_, ?_⟩
  · rw [Frame.pcb, pcbByte_outbound]
    exact canonical.1
  · rw [len_outbound]
    exact canonical.2

/-- What is sent of a canonical frame is the wire form of its block, whatever else the buffer
    holds. -/
theorem bytes_outbound (o : Options) {f : Frame} (canonical : f.IsCanonical) :
    (o.outbound f).bytes = o.wire f.block := by
  have len : f.len = UInt8.ofNat f.inf.length := by
    rw [Frame.length_inf, Frame.infLength_of_le canonical.2, UInt8.ofNat_toNat]
  have content : f.pcbByte :: f.len :: f.inf =
      f.block.pcb.toByte :: UInt8.ofNat f.block.inf.length :: f.block.inf := by
    rw [canonical.1, len]
    rfl
  rw [bytes_outbound_eq, checkedNode, wire]
  simp only [← content]

end Options

end CardLink
