import CardLink.Exchange.Sequence
import CardLink.Block

/-!
# Transfers

What one exchange has to send, what it has received so far, and the counters that bound its
attempts. The payload goes out in blocks as large as the card takes. The response is written into a
buffer of the caller's, from its start and as far as it reaches; what the buffer held before stays
behind what was written.
-/

namespace CardLink

/-- What went wrong last in an exchange. -/
inductive Complaint where
  | refused (fault : BlockFault)
  -- There was nothing to do about a refused frame after a block
  | noRule (sent : Pcb)
deriving DecidableEq, Repr

def Complaint.text : Complaint → String
  | refused fault => "invalid frame received (" ++ fault.text ++ ")"
  | noRule sent => "no rule for " ++ Pcb.sentinelText ++ " after " ++ sent.text

/-- The state of one exchange's data. -/
structure Transfer where
  -- Everything that is to be sent
  payload : Bytes
  -- How much of it has been put into blocks
  filled : Nat := 0
  -- The buffer that the response is written into
  buffer : Bytes
  -- How much of the response has been written
  written : Nat := 0
  -- The most information that the card takes in one block
  ifs : Ifs := .largest
  -- The factor for the next wait
  wait : WaitFactor := .one
  -- Refused frames since the last progress, modulo `2 ^ 32`
  errors : Nat := 0
  -- Blocks sent again since the last progress
  resends : Nat := 0
  complaint : Option Complaint := none
deriving DecidableEq

namespace Transfer

def into (payload buffer : Bytes) : Transfer := { payload, buffer }

def start (payload : Bytes) (capacity : Nat) : Transfer := into payload (List.replicate capacity 0)

/-- The transfer from its start, with nothing sent, received or negotiated. The buffer keeps the
    bytes of the attempt that was given up. -/
def rewound (t : Transfer) : Transfer := into t.payload t.buffer

/-! ## The response -/

def response (t : Transfer) : Bytes := t.buffer.take t.written

def capacity (t : Transfer) : Nat := t.buffer.length

/-- How many more bytes the receiver takes. -/
def room (t : Transfer) : Nat := t.capacity - t.written

/-- The transfer with as much of a block's information taken as there is room for. Only information
    blocks carry some of the response. -/
def taking (t : Transfer) (b : Block) : Transfer :=
  if b.pcb.isInfo then
    let fresh := b.inf.take t.room
    { t with
      buffer := t.buffer.take t.written ++ fresh ++ t.buffer.drop (t.written + fresh.length)
      written := t.written + fresh.length }
  else t

/-- Taking some of the response writes into the buffer, and does nothing else. -/
theorem taking_eq (t : Transfer) (b : Block) : ∃ buffer written,
    t.taking b = { t with buffer, written } ∧ buffer.length = t.buffer.length := by
  unfold taking
  split
  · refine ⟨_, _, rfl, ?_⟩
    simp only [room, capacity, List.length_append, List.length_take, List.length_drop]
    omega
  · exact ⟨_, _, rfl, rfl⟩

/-- What a transfer takes of an information block comes behind what it took before. -/
theorem response_taking {t : Transfer} {b : Block} (info : b.pcb.isInfo = true) :
    (t.taking b).response = t.response ++ b.inf.take t.room := by
  have reaches : t.written ≤ t.buffer.length ∨ b.inf.take t.room = [] := by
    rcases Nat.le_total t.written t.buffer.length with within | beyond
    · exact .inl within
    · have full : t.room = 0 := Nat.sub_eq_zero_of_le beyond
      exact .inr (by rw [full, List.take_zero])
  simp only [taking, info, if_true, response]
  rcases reaches with within | nothing
  · have length : (t.buffer.take t.written ++ b.inf.take t.room).length =
        t.written + (b.inf.take t.room).length := by
      rw [List.length_append, List.length_take, Nat.min_eq_left within]
    rw [← length, List.take_left]
  · simp [nothing]

theorem room_taking {t : Transfer} {b : Block} (info : b.pcb.isInfo = true) :
    (t.taking b).room = t.room - (b.inf.take t.room).length := by
  obtain ⟨buffer, written, taking, length⟩ := t.taking_eq b
  have capacity : (t.taking b).capacity = t.capacity := by
    rw [taking]
    exact length
  have more : (t.taking b).written = t.written + (b.inf.take t.room).length := by
    simp only [Transfer.taking, info, if_true]
  change (t.taking b).capacity - (t.taking b).written = t.capacity - t.written - _
  rw [capacity, more, Nat.sub_add_eq]

theorem length_response (t : Transfer) : t.response.length = t.capacity - t.room := by
  simp only [response, room, capacity, List.length_take]
  omega

theorem take_length_response (t : Transfer) : t.buffer.take t.response.length = t.response := by
  rw [response, List.length_take, ← List.take_take, List.take_length]

/-! ## The payload -/

/-- The part of the payload that is in no block yet. -/
def pending (t : Transfer) : Bytes := t.payload.drop t.filled

def nextInf (t : Transfer) : Bytes := t.pending.take t.ifs.toNat

theorem length_nextInf_le (t : Transfer) : t.nextInf.length ≤ maxInf := by
  have := t.ifs.le_maxInf
  simp only [nextInf, Ifs.toNat, List.length_take]
  omega

def advanced (t : Transfer) : Transfer := { t with filled := t.filled + t.nextInf.length }

/-- The next block of the payload, as large as the card takes. It says whether more follows. -/
def nextBlock (t : Transfer) (seq : Bool) : Block where
  pcb := .info seq (!t.advanced.pending.isEmpty)
  inf := t.nextInf
  inf_length_le := t.length_nextInf_le

theorem length_nextInf (t : Transfer) :
    t.nextInf.length = min t.ifs.toNat (t.payload.length - t.filled) := by
  rw [nextInf, List.length_take, pending, List.length_drop]

theorem take_length_nextInf (t : Transfer) : t.pending.take t.nextInf.length = t.nextInf := by
  rw [nextInf, List.length_take, ← List.take_eq_take_min]

theorem take_filled_append_nextInf (t : Transfer) :
    t.payload.take t.filled ++ t.nextInf = t.payload.take t.advanced.filled := by
  change _ = t.payload.take (t.filled + t.nextInf.length)
  rw [List.take_add, ← pending, take_length_nextInf]

theorem nextInf_append_pending (t : Transfer) : t.nextInf ++ t.advanced.pending = t.pending := by
  have rest : t.advanced.pending = t.pending.drop t.nextInf.length := by
    rw [pending, pending, List.drop_drop]
    rfl
  rw [rest]
  calc t.nextInf ++ t.pending.drop t.nextInf.length
      = t.pending.take t.nextInf.length ++ t.pending.drop t.nextInf.length := by rw [take_length_nextInf]
    _ = t.pending := List.take_append_drop ..

/-- The next block says that more follows if something is left of the payload after it. -/
theorem pcb_nextBlock (t : Transfer) (seq : Bool) :
    (t.nextBlock seq).pcb = .info seq (decide (t.advanced.filled < t.payload.length)) := by
  change Pcb.info seq (!(t.payload.drop t.advanced.filled).isEmpty) = _
  by_cases left : t.advanced.filled < t.payload.length
  · simp [left]
  · simp [left, Nat.le_of_not_lt left]

theorem advanced_filled_le (t : Transfer) (within : t.filled ≤ t.payload.length) :
    t.advanced.filled ≤ t.payload.length := by
  change t.filled + t.nextInf.length ≤ _
  rw [t.length_nextInf]
  omega

/-! ## Counters and waits -/

def progressed (t : Transfer) : Transfer := { t with errors := 0, resends := 0 }

/-- The transfer once its wait has begun. A longer wait is granted only once. -/
def waited (t : Transfer) : Transfer := { t with wait := .one }

def refusing (t : Transfer) (fault : BlockFault) : Transfer :=
  { t with errors := (t.errors + 1) % UInt32.size, complaint := some (.refused fault) }

end Transfer

end CardLink
