import CardLink.Frame.Codec
import CardLink.Proofs.Scripts

/-!
# Reading the wire form

The wire form of a block is read back as a sound frame that shows the block: by `Frame.decode`, which
looks at a whole byte string (`decode_wire`), and by a host to which a scripted card sends it
(`heard_wire`). So the card can tell from what it remembers which blocks were sent to it
(`heardFrames_of_wire`).

Both readers lay what follows the header over a buffer. `Frame.showing` is what they get, and is sound
if and only if its check fits, whatever the buffer held before.
-/

namespace CardLink

namespace Frame

/-- The frame that shows an information field and a check in a buffer that held something before. -/
def showing (base : Frame) (nad pcbByte : UInt8) (inf : Bytes) (check : UInt8) : Frame :=
  { base.overwritten (inf ++ [check]) with nad, pcbByte, len := UInt8.ofNat inf.length }

variable {inf : Bytes} (fits : inf.length ≤ maxInf) (base : Frame) (nad pcbByte check : UInt8)
include fits

theorem toNat_len_showing : (base.showing nad pcbByte inf check).len.toNat = inf.length :=
  toNat_ofNat_length fits

theorem infLength_showing : (base.showing nad pcbByte inf check).infLength = inf.length := by
  rw [infLength_of_le, toNat_len_showing fits]
  rw [toNat_len_showing fits]
  exact fits

theorem body_showing : (base.showing nad pcbByte inf check).body =
    inf ++ check :: base.body.drop (inf.length + 1) := by
  have room : (inf ++ [check]).length ≤ base.body.length := by
    rw [base.body_length, List.length_append]
    exact Nat.succ_le_succ fits
  change (inf ++ [check]).take base.body.length ++ base.body.drop (inf ++ [check]).length = _
  rw [List.take_of_length_le room, List.length_append, List.append_assoc]
  rfl

theorem inf_showing : (base.showing nad pcbByte inf check).inf = inf := by
  rw [Frame.inf, infLength_showing fits, body_showing fits, List.take_left]

theorem check_showing : (base.showing nad pcbByte inf check).check = check := by
  rw [Frame.check, List.get_eq_getElem]
  simp only [infLength_showing fits, body_showing fits]
  rw [List.getElem_append_right (Nat.le_refl _)]
  simp

theorem computedCheck_showing : (base.showing nad pcbByte inf check).computedCheck =
    Bytes.check (nad :: pcbByte :: UInt8.ofNat inf.length :: inf) := by
  rw [computedCheck_eq, inf_showing fits]
  rfl

theorem isSound_showing : (base.showing nad pcbByte inf check).isSound =
    (Bytes.check (nad :: pcbByte :: UInt8.ofNat inf.length :: inf) == check) := by
  have small : (base.showing nad pcbByte inf check).len.toNat ≤ maxInf := by
    rw [toNat_len_showing fits]
    exact fits
  simp [isSound, small, check_showing fits, computedCheck_showing fits]

theorem ofNat_length_ne_reserved : UInt8.ofNat inf.length ≠ 255 := by
  rw [← toNat_le_maxInf_iff, toNat_ofNat_length fits]
  exact fits

omit fits

@[simp] theorem block_showing (b : Block) (check : UInt8) :
    (base.showing nad b.pcb.toByte b.inf check).block = b := by
  have pcb : (base.showing nad b.pcb.toByte b.inf check).pcb = b.pcb := Pcb.ofByte_toByte b.pcb
  have inf := inf_showing b.inf_length_le base nad b.pcb.toByte check
  cases b
  simp only [block, inf, pcb]

theorem isAbsent_showing (b : Block) (check : UInt8) :
    (base.showing nad b.pcb.toByte b.inf check).isAbsent = false := by
  change (b.pcb.toByte == Pcb.sentinel) = false
  simpa using b.pcb.toByte_ne_sentinel

/-! ## Decoding -/

/-- A byte string of the length that its LEN asks for is decoded if its check fits. -/
theorem decode_of_length (nad pcbByte first : UInt8) {len : UInt8} {rest : Bytes}
    (notReserved : len ≠ 255) (length : rest.length = len.toNat) :
    let f := blank.received nad pcbByte len (first :: rest)
    decode (nad :: pcbByte :: len :: first :: rest) =
      if f.computedCheck = f.check then .ok f
      else .error (.checksumMismatch f.computedCheck f.check) := by
  rw [decode, if_neg notReserved, if_neg (not_not_intro length)]
  rfl

/-- What was written comes back. -/
theorem decode_wire (b : Block) :
    ∃ f, decode (wire nad b.pcb b.inf) = .ok f ∧ f.block = b ∧ f.nad = nad := by
  let check := Bytes.check (nad :: b.pcb.toByte :: UInt8.ofNat b.inf.length :: b.inf)
  let f := blank.showing nad b.pcb.toByte b.inf check
  obtain ⟨first, rest, split⟩ := List.exists_cons_of_ne_nil (l := b.inf ++ [check]) (by simp)
  have length : rest.length = (UInt8.ofNat b.inf.length).toNat := by
    have := congrArg List.length split
    rw [List.length_append, List.length_cons] at this
    rw [toNat_ofNat_length b.inf_length_le]
    exact (Nat.succ.inj this).symm
  have shown : f = blank.received nad b.pcb.toByte (UInt8.ofNat b.inf.length) (first :: rest) := by
    rw [← split]
    rfl
  have same : f.computedCheck = f.check := by
    rw [check_showing b.inf_length_le, computedCheck_showing b.inf_length_le]
  refine ⟨f, ?_, block_showing .., rfl⟩
  change decode (nad :: b.pcb.toByte :: UInt8.ofNat b.inf.length :: (b.inf ++ [check])) = _
  rw [split, decode_of_length nad _ _ (ofNat_length_ne_reserved b.inf_length_le) length, ← shown,
    if_pos same]

end Frame

/-! ## Hearing a scripted card -/

theorem Reply.heard_frame {o : Options} (plain : o.convention = none) (pcbByte : UInt8) {inf : Bytes}
    (fits : inf.length ≤ maxInf) (check : UInt8) (behind : Bytes) :
    heard o (.frame (o.host :: pcbByte :: UInt8.ofNat inf.length :: (inf ++ check :: behind))) =
      Frame.absent.showing o.host pcbByte inf check := by
  have length : (UInt8.ofNat inf.length).toNat = inf.length := Frame.toNat_ofNat_length fits
  have enough : (UInt8.ofNat inf.length).toNat < (inf ++ check :: behind).length := by
    rw [length, List.length_append, List.length_cons]
    omega
  have read : (inf ++ check :: behind).take ((UInt8.ofNat inf.length).toNat + 1) = inf ++ [check] := by
    rw [length, List.take_length_add_append, List.take_succ_cons, List.take_zero]
  rw [heard, if_pos ⟨rfl, Frame.ofNat_length_ne_reserved fits, enough⟩]
  simp only [Options.underConvention, plain, read]
  rfl

/-- A block for this side is received as a sound frame that shows it. -/
theorem Reply.heard_wire {o : Options} (plain : o.convention = none) (b : Block) :
    let f := heard o (.frame (Frame.wire o.host b.pcb b.inf))
    f.block = b ∧ f.isAbsent = false ∧ f.isSound = true ∧ f.len = UInt8.ofNat b.inf.length := by
  intro f
  have shown : f = _ := heard_frame plain b.pcb.toByte b.inf_length_le _ []
  rw [shown]
  refine ⟨Frame.block_showing .., Frame.isAbsent_showing .., ?_, rfl⟩
  rw [Frame.isSound_showing b.inf_length_le]
  exact beq_self_eq_true _

theorem Options.wire_eq {o : Options} (plain : o.convention = none) (b : Block) :
    o.wire b = Frame.wire o.node b.pcb b.inf := by
  simp only [wire, Frame.wire, plain]
  rfl

theorem ScriptedCard.heardFrames_of_wire {o : Options} (plain : o.convention = none)
    {card : ScriptedCard} {blocks : List Block} (heard : card.heard = blocks.map o.wire) :
    card.heardFrames.map Frame.block = blocks := by
  rw [heardFrames, heard]
  clear heard
  induction blocks with
  | nil => rfl
  | cons b blocks ih =>
    obtain ⟨f, decoded, block, -⟩ := Frame.decode_wire o.node b
    rw [List.map_cons, List.filterMap_cons_some (b := f), List.map_cons, ih, block]
    rw [Options.wire_eq plain, decoded]
    rfl

end CardLink
