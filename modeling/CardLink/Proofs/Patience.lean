import CardLink.Proofs.Rounds

/-!
# How long refused frames are put up with

A refused frame is counted, and the reference is reported on or sent again. If too many are counted, a
new start is asked for, and if that is not answered either, the exchange has failed. `Persists` lists
these ways of going on, and `persists_of_refused` says that there are no others: each reference that an
exchange can get to is one that refused frames can be recovered from.

So a number of refused frames ends the exchange. It is read off the counters (`patience`), each refused
frame makes it smaller, and it is never more than seven.
-/

namespace CardLink

/-! ## References -/

/-- References after which a refused frame is recovered from: it is reported, or they are sent again. -/
def Pcb.IsRetried (sent : Pcb) : Prop := sent.isInfo = true ∨ sent.IsRepeated

/-- Such a reference gives no answer to the card, but for giving up a chain. -/
theorem Pcb.IsRetried.ne_response {sent : Pcb} (retried : sent.IsRetried) {kind : Supervisory}
    (other : kind ≠ .abort) : sent ≠ .response kind := by
  rintro rfl
  rcases retried with info | repeated
  · cases info
  · cases repeated
    exact other rfl

/-- Why the frame of a round was refused, if it was. -/
def Round.refusal? (r : Round Exchange) : Option BlockFault :=
  r.before.transfer.waited.refusal? r.before.sequence r.before.reference r.received

def Round.isRefused (r : Round Exchange) : Bool := r.refusal?.isSome

theorem Transfer.exists_rule_of_isRetried (t : Transfer) {reference : Block}
    (retried : reference.pcb.IsRetried) (fault : BlockFault) :
    ∃ reaction, t.Rule reference (.refused fault) reaction t := by
  rcases retried with info | repeated
  · obtain ⟨seq, more, sent⟩ := Pcb.isInfo_iff.mp info
    exact ⟨_, .report sent⟩
  · exact ⟨_, .repeat repeated⟩

namespace Exchange

variable {x y : Exchange} {v : Verdict} {r : Round Exchange}

theorem isRetried_start (purpose : Purpose) (s : Sequence) (t : Transfer) :
    (start purpose s t).reference.pcb.IsRetried := by
  cases purpose with
  | transceive => exact .inl rfl
  | negotiateIfs => exact .inr .ifs
  | abort => exact .inr .abort

/-- No exchange begins with the request for a new start. -/
theorem reference_start_ne_resync (purpose : Purpose) (s : Sequence) (t : Transfer) :
    (start purpose s t).reference.pcb ≠ .request .resync := by
  intro sent
  cases purpose <;> cases sent

theorem isRetried_of_leads (judges : x.Judges r) (leads : x.Leads r.verdict y)
    (retried : x.reference.pcb.IsRetried) : y.reference.pcb.IsRetried := by
  cases leads with
  | again => exact retried
  | interject => exact retried
  | resync => exact .inr .resync
  | restart => exact isRetried_start ..
  | reset => exact isRetried_start ..
  | proceed reaction =>
    cases refers_of_proceed judges reaction with
    | ack => exact .inr .ready
    | next => exact .inl rfl
    | abort => exact .inr .abort
    | resync => exact .inr .resync

/-- After such a reference there is always something to be done. -/
theorem reaction_ne_hardFail (retried : x.reference.pcb.IsRetried) (judges : x.Judges r) :
    r.verdict.reaction ≠ .hardFail := by
  intro stuck
  have judged := judges.judged
  generalize r.verdict = v at judged stuck
  cases judged with
  | accepted _ rule => subst stuck; cases rule
  | refused _ recovers =>
    subst stuck
    cases recovers with
    | rule _ _ rule => cases rule
    | stuck _ noRule =>
      obtain ⟨_, rule⟩ := Transfer.exists_rule_of_isRetried _ retried _
      rw [Transfer.answer?_of_rule rule] at noRule
      cases noRule

/-- An exchange as it is found between two rounds, if its counters began at zero. -/
structure IsRegular (x : Exchange) : Prop where
  steady : x.IsSteady
  retried : x.reference.pcb.IsRetried

theorem isRegular_start (purpose : Purpose) (s : Sequence) (payload buffer : Bytes) :
    (start purpose s (.into payload buffer)).IsRegular :=
  ⟨isSteady_start .., isRetried_start ..⟩

theorem IsRegular.leads (regular : x.IsRegular) (judges : x.Judges r) (leads : x.Leads r.verdict y) :
    y.IsRegular :=
  ⟨regular.steady.leads judges leads, isRetried_of_leads judges leads regular.retried⟩

theorem isKept_isRegular : IsKept fun _ x => x.IsRegular := fun _ _ _ _ => IsRegular.leads

/-- An exchange ends by its purpose being served, by the card giving it up, or because no new start could
    be agreed on. -/
theorem IsRegular.ends (regular : x.IsRegular) (judges : x.Judges r) {ending : Ending}
    (ends : x.Ends r.verdict ending y) :
    (∃ response, ending = .completed response) ∨ ending = .unanswered ∨ ending = .failed .abort := by
  cases ends with
  | completed => exact .inl ⟨_, rfl⟩
  | aborted => exact .inr (.inr rfl)
  | unanswered => exact .inr (.inl rfl)
  | gaveUp reaction => exact absurd reaction (reaction_ne_hardFail regular.retried judges)
  | notReset reaction => exact absurd reaction (regular.steady.reaction_ne_resetDevice judges)

/-! ## Going on after a refused frame -/

/-- How an exchange goes on after a refused frame. -/
inductive Persists (x y : Exchange) : Prop where
  -- The frame is counted
  | counts (sent : x.reference.pcb ≠ .request .resync) (reference : y.reference = x.reference)
      (errors : y.transfer.errors = x.transfer.errors + 1) (few : y.transfer.errors < resyncLimit)
      (resends : y.transfer.resends ≤ x.transfer.resends + 1)
  -- The request for a new start is sent again
  | repeats (sent : x.reference.pcb = .request .resync) (reference : y.reference = x.reference)
      (errors : y.transfer.errors = x.transfer.errors + 1)
      (resends : y.transfer.resends = x.transfer.resends + 1) (few : x.transfer.resends < resendLimit)
      (quiet : y.interjection = none)
  -- A new start is asked for
  | asks (sent : x.reference.pcb ≠ .request .resync)
      (many : resyncLimit ≤ x.transfer.errors + 1 ∨ resendLimit ≤ x.transfer.resends)
      (reference : y.reference = .plain (.request .resync)) (errors : y.transfer.errors = 0)
      (resends : y.transfer.resends = 0) (quiet : y.interjection = none)

theorem Leads.eq_of_proceed {next : Block} (leads : x.Leads v y) (reaction : v.reaction = .proceed next) :
    y = (x.judged v).referring next := by
  cases leads <;> simp_all

theorem Leads.eq_of_interject {next : Block} (leads : x.Leads v y)
    (reaction : v.reaction = .interject next) : y = { x.judged v with interjection := some next } := by
  cases leads <;> simp_all

/-- What is done about a refused frame of a regular exchange: a new start is asked for, or a rule for
    refused frames applies. -/
theorem IsRegular.recovers (regular : x.IsRegular) (judges : x.Judges r) (refused : r.refusal? ≠ none) :
    ∃ fault, let t := x.transfer.waited.refusing fault
      t.errors = x.transfer.errors + 1 ∧
        ((r.verdict.reaction = .proceed (.plain (.request .resync)) ∧ r.verdict.transfer = t ∧
            resyncLimit ≤ t.errors ∧ x.reference.pcb ≠ .request .resync) ∨
          (x.reference.pcb ≠ .request .resync → t.errors < resyncLimit) ∧
            t.Rule x.reference (.refused fault) r.verdict.reaction r.verdict.transfer) := by
  have noReset := regular.steady.reaction_ne_resetDevice judges
  have judged := judges.judged
  generalize r.verdict = v at judged noReset
  cases judged with
  | accepted passed rule =>
    refine absurd ?_ refused
    rw [Round.refusal?, judges.before]
    exact Transfer.refusal?_eq_none_iff.mpr ⟨passed, _, _, rule⟩
  | @refused fault _ _ _ recovers =>
    refine ⟨fault, regular.steady.errors_refusing fault, ?_⟩
    cases recovers with
    | reset => exact absurd rfl noReset
    | resync many sent => exact .inl ⟨rfl, rfl, many, sent⟩
    | rule _ fewer rule => exact .inr ⟨fewer, rule⟩
    | stuck _ noRule =>
      obtain ⟨_, rule⟩ := Transfer.exists_rule_of_isRetried _ regular.retried fault
      rw [Transfer.answer?_of_rule rule] at noRule
      cases noRule

/-- If an exchange goes on after a refused frame, only a limit has made another block the reference. -/
theorem IsRegular.persists_of_refused (regular : x.IsRegular) (judges : x.Judges r)
    (refused : r.refusal? ≠ none) (leads : x.Leads r.verdict y) : x.Persists y := by
  obtain ⟨fault, counted, recovery⟩ := regular.recovers judges refused
  generalize r.verdict = v at leads recovery
  obtain ⟨reaction, t', s⟩ := v
  rcases recovery with ⟨proceeds, rfl, many, sent⟩ | ⟨fewer, rule⟩
  · obtain rfl := leads.eq_of_proceed proceeds
    exact .asks sent (.inl (counted ▸ many)) rfl rfl rfl rfl
  · cases rule with
    | report sent =>
      obtain rfl := leads.eq_of_interject rfl
      have info : x.reference.pcb ≠ .request .resync := by simp [sent]
      exact .counts info rfl counted (fewer info) (Nat.le_succ _)
    | «repeat» =>
      cases leads with
      | again _ few =>
        by_cases sent : x.reference.pcb = .request .resync
        · exact .repeats sent rfl counted rfl few rfl
        · exact .counts sent rfl counted (fewer sent) (Nat.le_refl _)
      | resync _ many sent => exact .asks sent (.inr many) rfl rfl rfl rfl
      | proceed reaction => cases reaction
      | interject reaction => cases reaction
      | restart reaction => cases reaction
      | reset reaction => cases reaction

/-- A refused frame ends an exchange only if the request for a new start has been sent too often. -/
theorem IsRegular.unanswered_of_refused (regular : x.IsRegular) (judges : x.Judges r)
    (refused : r.refusal? ≠ none) {ending : Ending} (ends : x.Ends r.verdict ending y) :
    ending = .unanswered ∧ x.reference.pcb = .request .resync ∧ x.transfer.resends = resendLimit := by
  obtain ⟨fault, -, recovery⟩ := regular.recovers judges refused
  generalize r.verdict = v at ends recovery
  obtain ⟨reaction, t', s⟩ := v
  rcases recovery with ⟨proceeds, -⟩ | ⟨-, rule⟩
  · cases ends <;> simp_all
  · have retransmits : reaction = .retransmit := by
      cases rule with
      | report => cases ends <;> simp_all
      | «repeat» => rfl
    subst retransmits
    cases ends with
    | unanswered _ many sent =>
      have steady := regular.steady
      simp only [IsSteady, sent, if_true] at steady
      have same : t'.resends = x.transfer.resends := rule.keeps.resends
      exact ⟨rfl, sent, Nat.le_antisymm steady.2 (same ▸ many)⟩
    | completed reaction => cases reaction
    | aborted reaction => cases reaction
    | gaveUp reaction => cases reaction
    | notReset reaction => cases reaction

/-! ## Patience -/

/-- So many refused frames in a row end an exchange at the latest. -/
def patience (x : Exchange) : Nat :=
  if x.reference.pcb = .request .resync then resendLimit + 1 - x.transfer.resends
  else resendLimit + 1 + (resyncLimit - x.transfer.errors)

theorem patience_le (x : Exchange) : x.patience ≤ 7 := by
  unfold patience resendLimit resyncLimit
  split <;> omega

theorem IsSteady.patience_pos (steady : x.IsSteady) : 0 < x.patience := by
  unfold IsSteady at steady
  unfold patience
  split at steady
  next sent =>
    rw [if_pos sent]
    omega
  next sent =>
    rw [if_neg sent]
    omega

/-- A refused frame takes away some patience. If every repetition so far was due to one, it takes away
    no more than one. -/
theorem Persists.patience_lt (persists : x.Persists y) (steady : x.IsSteady) :
    y.patience < x.patience ∧ (x.transfer.resends ≤ x.transfer.errors →
      y.patience + 1 = x.patience ∧ y.transfer.resends ≤ y.transfer.errors) := by
  have : resendLimit = 3 := rfl
  have : resyncLimit = 3 := rfl
  cases persists with
  | counts sent reference errors few resends =>
    simp only [patience, reference, if_neg sent]
    omega
  | repeats sent reference errors resends few =>
    simp only [patience, reference, if_pos sent]
    omega
  | asks sent many reference errors resends =>
    have now : y.reference.pcb = .request .resync := by rw [reference]; rfl
    simp only [IsSteady, if_neg sent] at steady
    simp only [patience, if_neg sent, if_pos now]
    omega

end Exchange

end CardLink
