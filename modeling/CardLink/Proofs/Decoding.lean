import CardLink.Proofs.Wire

/-!
# What decoding accepts

A byte string is a block if it is long enough, has a LEN in range and the length that LEN asks for, and
the exclusive or of all its bytes is zero (`Bytes.IsBlock`). These are the byte strings that are decoded,
and any other is refused for the first of the four conditions that it violates (`Bytes.Refusal`). The
frame that is decoded has the bytes of the block. It is written back as the same bytes unless reserved
bits of its control byte are set, because these are ignored when the byte is read and zero when it is
written (`decode_exact`).

The check tells apart any two strings that differ in one byte. LEN is told apart by the length already, so
no block is turned into another one by changing one byte of it (`decode_of_corrupted`).
-/

namespace CardLink

/-! ## Control bytes -/

namespace Pcb

/-- The bits of a control byte that say nothing, which depends on the kind of block. -/
def reservedBits (byte : UInt8) : UInt8 :=
  if byte &&& 0x80 = 0 then 0x1F
  else if byte &&& 0x40 = 0 then 0x2C
  else 0x1C

def IsCanonical (byte : UInt8) : Prop := byte &&& reservedBits byte = 0

instance (byte : UInt8) : Decidable (IsCanonical byte) :=
  inferInstanceAs (Decidable (byte &&& reservedBits byte = 0))

/-- A control byte survives reading and writing if and only if it is canonical. -/
theorem toByte_ofByte_iff (byte : UInt8) : (ofByte byte).toByte = byte ↔ IsCanonical byte := by
  have all : ∀ bits : BitVec 8,
      (ofByte (.ofBitVec bits)).toByte = .ofBitVec bits ↔ IsCanonical (.ofBitVec bits) := by
    decide +kernel
  exact all byte.toBitVec

example : IsCanonical 0xE3 ∧ ¬ IsCanonical sentinel := by decide

end Pcb

/-! ## Blocks -/

namespace Bytes

/-- The byte strings that are blocks. -/
structure IsBlock (w : Bytes) : Prop where
  long : 4 ≤ w.length
  inRange : w[2].toNat ≤ maxInf
  length_eq : w.length = w[2].toNat + 4
  check_eq : check w = 0

/-- Why a byte string is refused: the first condition on blocks that it violates, with the values that
    this condition asks for and finds. -/
inductive Refusal (w : Bytes) : Error → Prop where
  | short (few : w.length < 4) : Refusal w (.invalidLength 4 w.length)
  | reserved (long : 4 ≤ w.length) (outOfRange : maxInf < w[2].toNat) :
      Refusal w (.frameFormat "LEN 255 is reserved")
  | length (long : 4 ≤ w.length) (inRange : w[2].toNat ≤ maxInf) (other : w.length ≠ w[2].toNat + 4) :
      Refusal w (.invalidLength (w[2].toNat + 4) w.length)
  -- The last byte is not the check of those before it
  | check {content trailer} (long : 4 ≤ w.length) (inRange : w[2].toNat ≤ maxInf)
      (length_eq : w.length = w[2].toNat + 4) (wrong : check w ≠ 0) (split : w = content ++ [trailer]) :
      Refusal w (.checksumMismatch (check content) trailer)

variable {w : Bytes} {e e' : Error}

theorem Refusal.not_isBlock (refusal : w.Refusal e) : ¬ w.IsBlock := by
  intro block
  cases refusal with
  | short few => exact Nat.not_lt_of_le block.long few
  | reserved _ outOfRange => exact Nat.not_lt_of_le block.inRange outOfRange
  | length _ _ other => exact other block.length_eq
  | check _ _ _ wrong => exact wrong block.check_eq

/-- There is one first condition. -/
theorem Refusal.unique (refusal : w.Refusal e) (refusal' : w.Refusal e') : e = e' := by
  cases refusal with
  | short few =>
    cases refusal' with
    | short => rfl
    | _ => omega
  | reserved long outOfRange =>
    cases refusal' with
    | reserved => rfl
    | _ => omega
  | length long inRange other =>
    cases refusal' with
    | length => rfl
    | _ => omega
  | check long inRange length_eq wrong split =>
    cases refusal' with
    | check _ _ _ _ split' =>
      obtain ⟨rfl, last⟩ := List.append_inj' (split.symm.trans split') rfl
      cases last
      rfl
    | _ => omega

/-- A prefix that is a block ends where its LEN says. -/
theorem IsBlock.unique {p p' : Bytes} (block : p.IsBlock) (block' : p'.IsBlock) (start : p <+: w)
    (start' : p' <+: w) : p = p' := by
  have long := block.long
  have long' := block'.long
  have len : p[2] = p'[2] := (start.getElem _).trans (start'.getElem _).symm
  have length : p.length = p'.length := by rw [block.length_eq, block'.length_eq, len]
  exact (List.prefix_of_prefix_length_le start start' (Nat.le_of_eq length)).eq_of_length length

end Bytes

/-! ## Frames that carry blocks -/

namespace Frame

/-- A frame is sound if and only if its bytes are a block. -/
theorem isBlock_bytes_iff (f : Frame) : f.bytes.IsBlock ↔ f.isSound = true := by
  have long : 4 ≤ f.bytes.length := by
    rw [length_bytes]
    omega
  have len : f.bytes[2] = f.len := by
    simp only [bytes_eq_concat]
    rfl
  rw [isSound_iff]
  constructor
  · intro block
    have inRange := block.inRange
    rw [len] at inRange
    exact ⟨inRange, block.check_eq⟩
  · rintro ⟨inRange, check_eq⟩
    refine ⟨long, ?_, ?_, check_eq⟩
    · rwa [len]
    · rw [len, length_bytes, infLength_of_le inRange]

/-! ## Decoding -/

/-- Either a byte string is a block, and the frame that is decoded has its bytes, or it is refused for
    the first condition that it violates. -/
theorem decode_cases (w : Bytes) :
    (w.IsBlock ∧ ∃ f, decode w = .ok f ∧ f.bytes = w) ∨ ∃ e, w.Refusal e ∧ decode w = .error e := by
  match w with
  | [] | [_] | [_, _] | [_, _, _] => exact .inr ⟨_, .short (by simp), rfl⟩
  | nad :: pcbByte :: len :: first :: rest =>
    have long : 4 ≤ (nad :: pcbByte :: len :: first :: rest).length := by simp
    by_cases reserved : len = 255
    · subst reserved
      have outOfRange : maxInf < (255 : UInt8).toNat := by decide
      exact .inr ⟨_, .reserved long outOfRange, rfl⟩
    have inRange : len.toNat ≤ maxInf := toNat_le_maxInf_iff.mpr reserved
    by_cases length : rest.length = len.toNat
    · let f := blank.received nad pcbByte len (first :: rest)
      have bytes : f.bytes = nad :: pcbByte :: len :: first :: rest :=
        bytes_received blank nad pcbByte inRange (congrArg Nat.succ length)
      have decoded := decode_of_length nad pcbByte first reserved length
      by_cases sound : f.computedCheck = f.check
      · have block : f.bytes.IsBlock := f.isBlock_bytes_iff.mpr
          (isSound_iff.mpr ⟨inRange, f.check_bytes_eq_zero_iff.mpr sound⟩)
        rw [bytes] at block
        rw [decoded, if_pos sound]
        exact .inl ⟨block, f, rfl, bytes⟩
      · have wrong : Bytes.check f.bytes ≠ 0 := fun zero => sound (f.check_bytes_eq_zero_iff.mp zero)
        have split := f.bytes_eq_concat
        rw [bytes] at wrong split
        rw [decoded, if_neg sound]
        exact .inr ⟨_, .check long inRange (by simp [length]) wrong split, rfl⟩
    · refine .inr ⟨_, .length long inRange (by simpa using length), ?_⟩
      rw [decode, if_neg reserved, if_pos length]
      rfl

variable {w : Bytes} {e : Error} {f : Frame}

theorem isBlock_iff : (∃ f, decode w = .ok f) ↔ w.IsBlock := by
  rcases decode_cases w with ⟨block, f, decoded, -⟩ | ⟨e, refusal, refused⟩
  · exact ⟨fun _ => block, fun _ => ⟨f, decoded⟩⟩
  · simp only [refused, reduceCtorEq, exists_false, false_iff]
    exact refusal.not_isBlock

theorem refusal_iff : decode w = .error e ↔ w.Refusal e := by
  rcases decode_cases w with ⟨block, f, decoded, -⟩ | ⟨e', refusal, refused⟩
  · simp only [decoded, reduceCtorEq, false_iff]
    exact fun refusal => refusal.not_isBlock block
  · rw [refused, Except.error.injEq]
    constructor
    · rintro rfl
      exact refusal
    · exact refusal.unique

theorem bytes_of_decode (decoded : decode w = .ok f) : f.bytes = w := by
  rcases decode_cases w with ⟨-, f', decoded', bytes⟩ | ⟨e, -, refused⟩
  · rw [decoded] at decoded'
    cases decoded'
    exact bytes
  · rw [decoded] at refused
    cases refused

theorem isSound_of_decode (decoded : decode w = .ok f) : f.isSound = true := by
  rw [← isBlock_bytes_iff, bytes_of_decode decoded]
  exact isBlock_iff.mp ⟨f, decoded⟩

/-! ## Encoding -/

section Encoding

variable {nad : UInt8} {pcb : Pcb} {inf encoded : Bytes}

theorem encode_eq_ok_iff :
    encode nad pcb inf = .ok encoded ↔ inf.length ≤ maxInf ∧ wire nad pcb inf = encoded := by
  by_cases fits : inf.length ≤ maxInf <;> simp [encode_eq, fits]

theorem encode_eq_error_iff :
    encode nad pcb inf = .error e ↔ maxInf < inf.length ∧ .invalidLength maxInf inf.length = e := by
  by_cases fits : inf.length ≤ maxInf
  · simp [encode_eq, fits, Nat.not_lt_of_le fits]
  · simp [encode_eq, fits, Nat.lt_of_not_le fits]

end Encoding

/-- A sound frame is written back as its bytes if no reserved bit of its control byte is set. -/
theorem encode_eq_bytes_iff (sound : f.isSound = true) :
    encode f.nad f.pcb f.inf = .ok f.bytes ↔ Pcb.IsCanonical f.pcbByte := by
  obtain ⟨inRange, check_eq⟩ := isSound_iff.mp sound
  have check := f.check_bytes_eq_zero_iff.mp check_eq
  have fits : f.inf.length ≤ maxInf := by
    rw [length_inf]
    exact f.infLength_le
  have len : UInt8.ofNat f.inf.length = f.len := by
    rw [length_inf, infLength_of_le inRange, UInt8.ofNat_toNat]
  rw [encode_eq_ok_iff, wire, bytes_eq_concat, ← check, computedCheck_eq, len, ← Pcb.toByte_ofByte_iff]
  constructor
  · rintro ⟨-, same⟩
    have same := List.cons.inj (List.cons.inj same).2
    exact same.1
  · intro canonical
    rw [pcb, canonical]
    exact ⟨fits, rfl⟩

/-- Decoding accepts exactly the blocks, and it and encoding undo each other: what was encoded is decoded
    as it was given, and what was decoded is encoded as it was read if its control byte is canonical. -/
theorem decode_exact (w : Bytes) (nad : UInt8) (pcb : Pcb) (inf : Bytes) :
    ((∃ f, decode w = .ok f) ↔ w.IsBlock) ∧ (∀ e, decode w = .error e ↔ w.Refusal e) ∧
      (∀ f, decode w = .ok f → f.bytes = w ∧ w[1]? = some f.pcbByte ∧
        (encode f.nad f.pcb f.inf = .ok w ↔ Pcb.IsCanonical f.pcbByte)) ∧
      ((∃ encoded, encode nad pcb inf = .ok encoded) ↔ inf.length ≤ maxInf) ∧
      (∀ e, encode nad pcb inf = .error e ↔ maxInf < inf.length ∧ .invalidLength maxInf inf.length = e) ∧
      ∀ encoded, encode nad pcb inf = .ok encoded →
        ∃ f, decode encoded = .ok f ∧ f.nad = nad ∧ f.pcb = pcb ∧ f.inf = inf := by
  refine ⟨isBlock_iff, fun e => refusal_iff, ?_, ?_, fun e => encode_eq_error_iff, ?_⟩
  · intro f decoded
    have bytes := bytes_of_decode decoded
    have canonical := encode_eq_bytes_iff (isSound_of_decode decoded)
    rw [bytes] at canonical
    refine ⟨bytes, ?_, canonical⟩
    rw [← bytes]
    rfl
  · simp [encode_eq_ok_iff]
  · intro encoded encodes
    obtain ⟨fits, rfl⟩ := encode_eq_ok_iff.mp encodes
    obtain ⟨f, decoded, block, address⟩ := decode_wire nad ⟨pcb, inf, fits⟩
    exact ⟨f, decoded, address, congrArg Block.pcb block, congrArg Block.inf block⟩

/-! ## Corruption -/

section Corruption

variable {i : Nat} {byte : UInt8}

/-- A changed LEN asks for another length. -/
theorem refusal_of_len (block : w.IsBlock) (long : 4 ≤ w.length) (changed : byte ≠ w[2]) :
    Bytes.Refusal (w.set 2 byte)
      (if byte = 255 then reservedLen else .invalidLength (byte.toNat + 4) w.length) := by
  have length : (w.set 2 byte).length = w.length := List.length_set ..
  have long' : 4 ≤ (w.set 2 byte).length := by rwa [length]
  have len : (w.set 2 byte)[2] = byte := List.getElem_set_self ..
  by_cases reserved : byte = 255
  · rw [if_pos reserved]
    refine .reserved long' ?_
    rw [len, reserved]
    decide
  · have inRange : (w.set 2 byte)[2].toNat ≤ maxInf := by
      rw [len]
      exact toNat_le_maxInf_iff.mpr reserved
    have misses : (w.set 2 byte).length ≠ (w.set 2 byte)[2].toNat + 4 := by
      have other : byte.toNat ≠ w[2].toNat := fun same => changed (UInt8.toNat_inj.mp same)
      rw [len, length, block.length_eq]
      omega
    have refusal : Bytes.Refusal (w.set 2 byte) _ := .length long' inRange misses
    rw [len, length] at refusal
    rwa [if_neg reserved]

/-- Any other byte that is changed shows in the check. -/
theorem refusal_of_other (block : w.IsBlock) (elsewhere : i ≠ 2) (within : i < w.length)
    (changed : byte ≠ w[i]) : ∃ expected actual,
      Bytes.Refusal (w.set i byte) (.checksumMismatch expected actual) ∧
        expected ^^^ actual = w[i] ^^^ byte := by
  have long := block.long
  have length : (w.set i byte).length = w.length := List.length_set ..
  have long' : 4 ≤ (w.set i byte).length := by rwa [length]
  have len : (w.set i byte)[2] = w[2] := List.getElem_set_ne elsewhere _
  have check := Bytes.check_set within byte
  rw [block.check_eq, UInt8.zero_xor] at check
  have wrong : Bytes.check (w.set i byte) ≠ 0 := by
    rw [check]
    exact fun zero => changed (UInt8.xor_eq_zero_iff.mp zero).symm
  obtain ⟨content, trailer, split⟩ : ∃ content trailer, w.set i byte = content ++ [trailer] :=
    ⟨_, _, (List.dropLast_append_getLast (List.ne_nil_of_length_pos (by omega))).symm⟩
  refine ⟨Bytes.check content, trailer, .check long' ?_ ?_ wrong split, ?_⟩
  · rw [len]
    exact block.inRange
  · rw [len, length]
    exact block.length_eq
  · rw [← Bytes.check_concat, ← split, check]

/-- No block is turned into another block by changing one byte of it. A changed LEN shows in the length,
    any other change in the check, which misses by as much as was changed. -/
theorem decode_of_corrupted (decoded : decode w = .ok f) (within : i < w.length) (changed : byte ≠ w[i]) :
    (i = 2 → decode (w.set i byte) =
        .error (if byte = 255 then reservedLen else .invalidLength (byte.toNat + 4) w.length)) ∧
      (i ≠ 2 → ∃ expected actual, decode (w.set i byte) = .error (.checksumMismatch expected actual) ∧
        expected ^^^ actual = w[i] ^^^ byte) := by
  have block := isBlock_iff.mp ⟨f, decoded⟩
  constructor
  · rintro rfl
    exact refusal_iff.mpr (refusal_of_len block block.long changed)
  · intro elsewhere
    obtain ⟨expected, actual, refusal, misses⟩ := refusal_of_other block elsewhere within changed
    exact ⟨expected, actual, refusal_iff.mpr refusal, misses⟩

end Corruption

/-- A block whose LEN, and one whose last byte, is changed. -/
theorem decode_of_corrupted_status :
    let w : Bytes := [0x5A, 0x00, 0x02, 0x90, 0x00, 0xC8]
    let f := blank.received 0x5A 0x00 0x02 [0x90, 0x00, 0xC8]
    decode w = .ok f ∧ decode (w.set 2 3) = .error (.invalidLength 7 6) ∧
      ∃ expected actual, decode (w.set 5 0x90) = .error (.checksumMismatch expected actual) ∧
        expected ^^^ actual = 0xC8 ^^^ 0x90 := by
  intro w f
  have decoded : decode w = .ok f := by decide +kernel
  have len := decode_of_corrupted decoded (show 2 < w.length by decide)
    (show (3 : UInt8) ≠ w[2] by decide)
  have trailer := decode_of_corrupted decoded (show 5 < w.length by decide)
    (show (0x90 : UInt8) ≠ w[5] by decide)
  exact ⟨decoded, len.1 rfl, trailer.2 (by decide)⟩

end Frame

end CardLink
