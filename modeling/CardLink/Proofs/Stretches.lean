import CardLink.Proofs.Rounds

/-!
# Stretches

A restart throws away all that an exchange has done so far. What an exchange has done *since it was last
begun* are its rounds after the last one that restarted it, its last *stretch*.

`Leads.cases` sorts the ways in which an exchange goes on by this: it is begun anew, or it carries on
with what the verdict made of its transfer and its sequence bits.
-/

namespace CardLink

/-! ## The last stretch of some rounds -/

/-- An element of a list with one more at its end is the last one, or stands before it. -/
theorem split_concat {α : Type} {l before after : List α} {a last : α}
    (split : l ++ [last] = before ++ a :: after) :
    (before = l ∧ a = last ∧ after = []) ∨ ∃ rest, l = before ++ a :: rest ∧ after = rest ++ [last] := by
  rcases List.eq_nil_or_concat after with rfl | ⟨rest, final, rfl⟩
  · obtain ⟨rfl, same⟩ := List.append_inj' split rfl
    cases same
    exact .inl ⟨rfl, rfl, rfl⟩
  · rw [List.concat_eq_append, ← List.cons_append, ← List.append_assoc] at split
    obtain ⟨rfl, same⟩ := List.append_inj' split rfl
    cases same
    exact .inr ⟨rest, rfl, List.concat_eq_append⟩

namespace Round

variable {α β : Type}

/-- Both sides have agreed in this round to start again. -/
def isRestart (r : Round α) : Bool := r.verdict.reaction == .resetSession

def sinceRestart (rounds : List (Round α)) : List (Round α) :=
  (rounds.reverse.takeWhile fun r => !r.isRestart).reverse

/-- The sequence bits with which the exchange was last begun, if it was begun with `s` first. -/
def origin (s : Sequence) (rounds : List (Round α)) : Sequence :=
  if rounds.any isRestart then .fresh else s

variable {r : Round α} {rounds : List (Round α)} {s : Sequence}

theorem isRestart_iff : r.isRestart = true ↔ r.verdict.reaction = .resetSession := by
  simp [isRestart]

theorem isRestart_of_ne (goesOn : r.verdict.reaction ≠ .resetSession) : r.isRestart = false := by
  simpa [isRestart] using goesOn

@[simp] theorem sinceRestart_nil : sinceRestart ([] : List (Round α)) = [] := rfl

@[simp] theorem origin_nil (s : Sequence) : origin s ([] : List (Round α)) = s := rfl

theorem sinceRestart_of_restart (restart : r.isRestart = true) : sinceRestart (rounds ++ [r]) = [] := by
  simp [sinceRestart, restart]

theorem origin_of_restart (restart : r.isRestart = true) : origin s (rounds ++ [r]) = .fresh := by
  simp [origin, restart]

theorem sinceRestart_of_not (goesOn : r.isRestart = false) :
    sinceRestart (rounds ++ [r]) = sinceRestart rounds ++ [r] := by
  simp [sinceRestart, goesOn]

theorem origin_of_not (s : Sequence) (rounds : List (Round α)) (goesOn : r.isRestart = false) :
    origin s (rounds ++ [r]) = origin s rounds := by
  simp [origin, goesOn]

theorem sinceRestart_suffix (rounds : List (Round α)) : sinceRestart rounds <:+ rounds := by
  have front := List.takeWhile_prefix (l := rounds.reverse) fun r : Round α => !r.isRestart
  exact List.reverse_prefix.mp (by simpa [sinceRestart] using front)

end Round

/-! ## Going on or beginning anew -/

namespace Exchange

variable {σ : Type} [Backend σ] {o : Options} {x y : Exchange} {v : Verdict} {r : Round Exchange}
variable {bus bus' : σ}

/-- The exchange goes on with what a verdict made of it, up to its counters. -/
structure Carries (x : Exchange) (v : Verdict) (y : Exchange) : Prop where
  purpose : y.purpose = x.purpose
  sequence : y.sequence = v.sequence
  transfer : ∃ errors resends, y.transfer = { v.transfer with errors, resends }

theorem Carries.filled (carries : x.Carries v y) : y.transfer.filled = v.transfer.filled := by
  obtain ⟨_, _, transfer⟩ := carries.transfer
  rw [transfer]

theorem Carries.response (carries : x.Carries v y) : y.transfer.response = v.transfer.response := by
  obtain ⟨_, _, transfer⟩ := carries.transfer
  rw [transfer]
  rfl

/-- A steady exchange is begun anew when both sides have agreed on it, and carries on in every other
    round that does not end it. -/
theorem Leads.cases (steady : x.IsSteady) (judges : x.Judges r) (leads : x.Leads r.verdict y) :
    (r.isRestart = true ∧ y = (x.judged r.verdict).restarted) ∨
      (r.isRestart = false ∧ x.Carries r.verdict y) := by
  -- A reset of the card would be the other way to begin anew, but the counters never get that high.
  have noReset := steady.reaction_ne_resetDevice judges
  cases leads with
  | restart reaction => exact .inl ⟨Round.isRestart_iff.mpr reaction, rfl⟩
  | reset reaction => exact absurd reaction noReset
  | again reaction =>
    exact .inr ⟨Round.isRestart_of_ne (by simp [reaction]), rfl, rfl, _, _, rfl⟩
  | resync reaction =>
    exact .inr ⟨Round.isRestart_of_ne (by simp [reaction]), rfl, rfl, _, _, rfl⟩
  | proceed reaction =>
    exact .inr ⟨Round.isRestart_of_ne (by simp [reaction]), rfl, rfl, _, _, rfl⟩
  | interject reaction =>
    exact .inr ⟨Round.isRestart_of_ne (by simp [reaction]), rfl, rfl, _, _, rfl⟩

theorem Ends.isRestart {ending : Ending} (ends : x.Ends r.verdict ending y) : r.isRestart = false := by
  apply Round.isRestart_of_ne
  cases ends <;> simp_all

/-- The restarts are the accepted answers to a request for one. -/
theorem Judges.isRestart_iff (judges : x.Judges r) : r.isRestart = true ↔
    x.reference.pcb = .request .resync ∧ r.received.pcb = .response .resync ∧
      x.transfer.waited.refusal? x.sequence x.reference r.received = none := by
  have judged := judges.judged
  rw [Round.isRestart_iff]
  generalize r.verdict = v at judged
  cases judged with
  | accepted passed rule =>
    have accepted := Transfer.refusal?_eq_none_iff.mpr ⟨passed, _, _, rule⟩
    constructor
    · intro restart
      cases restart
      cases rule with
      | restart sent resync => exact ⟨sent, resync, accepted⟩
    · rintro ⟨sent, resync, -⟩
      change r.received.block.pcb = _ at resync
      cases rule <;> simp_all
  | refused refusal recovers =>
    -- What is done about a refused frame is never a restart.
    constructor
    · intro restart
      cases restart
      cases recovers with
      | rule _ _ rule => cases rule
    · rintro ⟨-, -, accepted⟩
      rw [accepted] at refusal
      cases refusal

/-! ## What stays the same -/

/-- The parts of an exchange that no round changes are these. -/
structure Settled (purpose : Purpose) (payload : Bytes) (capacity : Nat) (x : Exchange) : Prop where
  purpose : x.purpose = purpose
  payload : x.transfer.payload = payload
  capacity : x.transfer.capacity = capacity

theorem settled_start (purpose : Purpose) (s : Sequence) (t : Transfer) :
    Settled purpose t.payload t.capacity (start purpose s t) := by
  cases purpose <;> exact ⟨rfl, rfl, rfl⟩

theorem settled_begun (purpose : Purpose) (s : Sequence) (payload buffer : Bytes) (wasReset : Bool) :
    Settled purpose payload buffer.length
      { start purpose s (.into payload buffer) with wasReset } := by
  cases purpose <;> exact ⟨rfl, rfl, rfl⟩

theorem Settled.restarted_eq {purpose : Purpose} {payload : Bytes} {capacity : Nat}
    (settled : Settled purpose payload capacity x) : x.restarted =
      { start purpose .fresh (.into payload x.transfer.buffer) with wasReset := x.wasReset } := by
  obtain ⟨rfl, rfl, -⟩ := settled
  rfl

theorem Settled.restarted {purpose : Purpose} {payload : Bytes} {capacity : Nat}
    (settled : Settled purpose payload capacity x) : Settled purpose payload capacity x.restarted := by
  rw [settled.restarted_eq, ← settled.capacity]
  exact settled_begun ..

theorem Settled.judged {purpose : Purpose} {payload : Bytes} {capacity : Nat}
    (settled : Settled purpose payload capacity x) (judges : x.Judges r) :
    Settled purpose payload capacity (x.judged r.verdict) := by
  have keeps := judges.judged.keeps
  exact ⟨settled.purpose, keeps.1.trans settled.payload, keeps.2.trans settled.capacity⟩

theorem Settled.leads {purpose : Purpose} {payload : Bytes} {capacity : Nat}
    (settled : Settled purpose payload capacity x) (judges : x.Judges r)
    (leads : x.Leads r.verdict y) : Settled purpose payload capacity y := by
  have judged := settled.judged judges
  cases leads with
  | restart => exact judged.restarted
  | reset => exact Settled.restarted ⟨judged.purpose, judged.payload, judged.capacity⟩
  | _ => exact ⟨judged.purpose, judged.payload, judged.capacity⟩

end Exchange

end CardLink
