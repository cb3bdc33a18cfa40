import CardLink.Proofs.Rules

/-!
# What the rules do not look at

What has been written into the response so far matters to no rule. This is said once for all relations
between two transfers that leave this much open: a relation is *respected* if related transfers differ in
nothing but their receipts, and stay related when both take a block or change in a way that does not
concern the receipt. The rules then apply to both alike, and the verdicts on a frame differ in nothing but
the transfers, which are related again (`Respected.judge`).
-/

namespace CardLink.Transfer

/-- The transfer as it would be with no room for a response. -/
def roomless (t : Transfer) : Transfer := { t with buffer := [], written := 0 }

/-- A change that has nothing to do with what was received. -/
def IsApart (f : Transfer → Transfer) : Prop :=
  ∀ t buffer written, f { t with buffer, written } = { f t with buffer, written }

theorem IsApart.receipt {f : Transfer → Transfer} (apart : IsApart f) (t : Transfer) :
    (f t).buffer = t.buffer ∧ (f t).written = t.written := by
  have same : f t = { f t with buffer := t.buffer, written := t.written } := apart t t.buffer t.written
  rw [same]
  exact ⟨rfl, rfl⟩

/-- Related transfers differ in their receipts at most, and no block makes any other difference. -/
structure Respected (R : Transfer → Transfer → Prop) : Prop where
  control : ∀ {t t'}, R t t' → t.roomless = t'.roomless
  taking : ∀ {t t'}, R t t' → ∀ b, R (t.taking b) (t'.taking b)
  map : ∀ {t t'}, R t t' → ∀ f, IsApart f → R (f t) (f t')

namespace Respected

variable {R : Transfer → Transfer → Prop} {t t' u : Transfer} {reference : Block} {seen : Sighting}
variable {reaction : Reaction}

theorem flip (respected : Respected R) : Respected fun t t' => R t' t :=
  ⟨fun both => (respected.control both).symm, respected.taking, respected.map⟩

theorem nextBlock (respected : Respected R) (both : R t t') (seq : Bool) :
    t.nextBlock seq = t'.nextBlock seq := by
  have same : t.roomless.nextBlock seq = t'.roomless.nextBlock seq := by rw [respected.control both]
  exact same

/-- The same rules apply to related transfers. -/
theorem rule (respected : Respected R) (both : R t t') (rule : t.Rule reference seen reaction u) :
    ∃ u', t'.Rule reference seen reaction u' ∧ R u u' := by
  cases rule with
  | last awaits info => exact ⟨_, .last awaits info, respected.taking both _⟩
  | part awaits info => exact ⟨_, .part awaits info, respected.taking both _⟩
  | @next _ seq sent ack =>
    rw [respected.nextBlock both]
    exact ⟨_, .next sent ack, respected.map both advanced fun _ _ _ => rfl⟩
  | again sent ready => exact ⟨_, .again sent ready, both⟩
  | nudge sent ready => exact ⟨_, .nudge sent ready, both⟩
  | @wait b _ sent wtx =>
    exact ⟨_, .wait sent wtx,
      respected.map both (fun t => { t with wait := .ofByte (b.value?.getD 1) }) fun _ _ _ => rfl⟩
  | @resize _ ifs sent request size =>
    exact ⟨_, .resize sent request size,
      respected.map both (fun t => { t with ifs }) fun _ _ _ => rfl⟩
  | yield sent abort => exact ⟨_, .yield sent abort, both⟩
  | restart sent resync => exact ⟨_, .restart sent resync, both⟩
  | agreed sent ifs same => exact ⟨_, .agreed sent ifs same, both⟩
  | aborted sent abort => exact ⟨_, .aborted sent abort, both⟩
  | abandoned sent ack => exact ⟨_, .abandoned sent ack, both⟩
  | report sent => exact ⟨_, .report sent, both⟩
  | «repeat» sent => exact ⟨_, .repeat sent, both⟩

theorem answer? (respected : Respected R) (both : R t t') (reference : Block) (seen : Sighting) :
    t.answer? reference seen = none ∧ t'.answer? reference seen = none ∨
      ∃ reaction u u', t.answer? reference seen = some (reaction, u) ∧
        t'.answer? reference seen = some (reaction, u') ∧ R u u' := by
  cases answer : t.answer? reference seen with
  | some outcome =>
    obtain ⟨u', rule, both⟩ := respected.rule both (rule_of_answer? answer)
    exact .inr ⟨_, _, u', rfl, answer?_of_rule rule, both⟩
  | none =>
    -- A rule for the other transfer would be one for this.
    refine .inl ⟨rfl, ?_⟩
    cases answer' : t'.answer? reference seen with
    | none => rfl
    | some outcome =>
      obtain ⟨_, rule, -⟩ := respected.flip.rule both (rule_of_answer? answer')
      rw [answer?_of_rule rule] at answer
      cases answer

theorem refusal? (respected : Respected R) (both : R t t') (s : Sequence) (reference : Block)
    (received : Frame) : t.refusal? s reference received = t'.refusal? s reference received := by
  unfold Transfer.refusal?
  rcases respected.answer? both reference (.block received.block) with
    ⟨left, right⟩ | ⟨_, _, _, left, right, -⟩
  · rw [left, right]
  · rw [left, right]
    rfl

theorem refuse (respected : Respected R) (both : R t t') (reference : Block) (fault : BlockFault) :
    (t.refuse reference fault).1 = (t'.refuse reference fault).1 ∧
      R (t.refuse reference fault).2 (t'.refuse reference fault).2 := by
  have refused := respected.map both (refusing · fault) fun _ _ _ => rfl
  have errors : (t'.refusing fault).errors = (t.refusing fault).errors :=
    (congrArg Transfer.errors (respected.control refused)).symm
  by_cases many : resetLimit ≤ (t.refusing fault).errors
  · simp only [Transfer.refuse, if_pos many, if_pos (errors ▸ many)]
    exact ⟨trivial, refused⟩
  have many' : ¬resetLimit ≤ (t'.refusing fault).errors := errors ▸ many
  by_cases resync : resyncLimit ≤ (t.refusing fault).errors ∧ reference.pcb ≠ .request .resync
  · simp only [Transfer.refuse, if_neg many, if_neg many', if_pos resync, if_pos (errors ▸ resync)]
    exact ⟨trivial, refused⟩
  have resync' : ¬(resyncLimit ≤ (t'.refusing fault).errors ∧ reference.pcb ≠ .request .resync) :=
    errors ▸ resync
  simp only [Transfer.refuse, if_neg many, if_neg many', if_neg resync, if_neg resync']
  rcases respected.answer? refused reference (.refused fault) with
    ⟨left, right⟩ | ⟨_, _, _, left, right, both⟩
  · rw [left, right]
    exact ⟨rfl, respected.map refused (fun t => { t with complaint := some (.noRule reference.pcb) })
      fun _ _ _ => rfl⟩
  · rw [left, right]
    exact ⟨rfl, both⟩

/-- A frame is judged for related transfers alike. -/
theorem judge (respected : Respected R) (both : R t t') (s : Sequence) (reference : Block)
    (received : Frame) : let v := judge t s reference received
    let v' := CardLink.judge t' s reference received
    v.reaction = v'.reaction ∧ v.sequence = v'.sequence ∧ R v.transfer v'.transfer := by
  simp only [CardLink.judge]
  cases s.fault? received with
  | some fault =>
    obtain ⟨reaction, transfer⟩ := respected.refuse both reference fault
    exact ⟨reaction, rfl, transfer⟩
  | none =>
    rcases respected.answer? both reference (.block received.block) with
      ⟨left, right⟩ | ⟨_, _, _, left, right, both⟩
    · obtain ⟨reaction, transfer⟩ := respected.refuse both reference .other
      simp only [left, right]
      exact ⟨reaction, trivial, transfer⟩
    · simp only [left, right]
      exact ⟨trivial, trivial, both⟩

end Respected

end CardLink.Transfer
