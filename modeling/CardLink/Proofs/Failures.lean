import CardLink.Proofs.Termination

/-!
# How an exchange fails

An exchange with a scripted card succeeds, or it fails in one of two ways (`ending_of_run`). No new start
could be agreed on, which is so exactly if the last four blocks that were sent asked for one in vain. Or
the card has given the exchange up, which is so exactly if it acknowledged the host's answer to that.

All other failures are out of reach: there is a rule for every refused frame, and the counters of an
exchange that began with them at zero never call for a reset of the card. If an exchange is made to start
with other counters, it resets the card once at most, since a reset sets them back to zero.
-/

namespace CardLink

/-! ## Rounds that lead to a failure -/

namespace Round

/-- A new start was asked for in the round, and what came back was refused. -/
structure IsVain (r : Round Exchange) : Prop where
  asked : r.before.outgoing = .plain (.request .resync)
  refused : r.refusal? ≠ none

/-- The card has acknowledged in the round that it gave the exchange up. -/
structure IsFarewell (r : Round Exchange) : Prop where
  sent : r.before.reference.pcb = .response .abort
  sound : r.received.isSound = true
  empty : r.received.len = 0
  ack : r.received.pcb.isPlainAck = true

/-- The card is to be reset after the round. -/
def isReset {α : Type} (r : Round α) : Bool := r.verdict.reaction == .resetDevice

theorem isReset_iff {α : Type} {r : Round α} :
    r.isReset = true ↔ r.verdict.reaction = .resetDevice := by
  simp [isReset]

end Round

namespace Exchange

variable {x y : Exchange} {r : Round Exchange}

theorem Judges.resends (judges : x.Judges r) : r.verdict.transfer.resends = x.transfer.resends := by
  have judged := judges.judged
  generalize r.verdict = v at judged
  cases judged with
  | accepted _ rule => exact rule.keeps.resends
  | refused _ recovers =>
    cases recovers with
    | rule _ _ rule => exact rule.keeps.resends
    | _ => rfl

theorem Judges.refusal_of_refused (judges : x.Judges r) {fault : BlockFault}
    (refusal : x.transfer.waited.refusal? x.sequence x.reference r.received = some fault) :
    r.refusal? ≠ none := by
  rw [Round.refusal?, judges.before, refusal]
  exact Option.some_ne_none _

/-! ## Asking in vain -/

/-- The request for a new start is sent again only because a frame was refused. -/
theorem refused_of_retransmit (judges : x.Judges r) (sent : x.reference.pcb = .request .resync)
    (reaction : r.verdict.reaction = .retransmit) : r.refusal? ≠ none := by
  have judged := judges.judged
  generalize r.verdict = v at judged reaction
  cases judged with
  | accepted _ rule => cases reaction.symm.trans (rule.reaction_of_resync sent)
  | refused refusal => exact judges.refusal_of_refused refusal

/-- Nothing is sent in place of the request for a new start. -/
theorem reaction_ne_interject (judges : x.Judges r) (sent : x.reference.pcb = .request .resync)
    (next : Block) : r.verdict.reaction ≠ .interject next := by
  intro reaction
  have judged := judges.judged
  generalize r.verdict = v at judged reaction
  cases judged with
  | accepted _ rule => cases reaction.symm.trans (rule.reaction_of_resync sent)
  | refused _ recovers =>
    subst reaction
    cases recovers with
    | rule _ _ rule =>
      cases rule with
      | report info =>
        rw [sent] at info
        cases info

theorem reference_restarted_ne_resync (x : Exchange) :
    x.restarted.reference.pcb ≠ .request .resync :=
  reference_start_ne_resync _ _ _

/-- The request for a new start is the reference because it has just been prepared, or because it was
    the reference before and what came back was refused. -/
theorem Leads.resync_cases (judges : x.Judges r) (leads : x.Leads r.verdict y)
    (now : y.reference.pcb = .request .resync) : y.interjection = none ∧
      ((y.reference = .plain (.request .resync) ∧ y.transfer.resends = 0) ∨
        (y.reference = x.reference ∧ r.refusal? ≠ none ∧
          y.transfer.resends = x.transfer.resends + 1)) := by
  cases leads with
  | again reaction =>
    exact ⟨rfl, .inr ⟨rfl, refused_of_retransmit judges now reaction, congrArg (· + 1) judges.resends⟩⟩
  | resync => exact ⟨rfl, .inl ⟨rfl, rfl⟩⟩
  | proceed reaction =>
    refine ⟨rfl, .inl ⟨?_, rfl⟩⟩
    have refers := refers_of_proceed judges reaction
    generalize sent : Exchange.referring _ _ = z at now ⊢
    subst sent
    cases refers with
    | resync => rfl
    | _ => cases now
  | interject reaction => exact absurd reaction (reaction_ne_interject judges now _)
  | restart => exact absurd now (reference_restarted_ne_resync _)
  | reset => exact absurd now (reference_restarted_ne_resync _)

/-- The last rounds, as many as the request for a new start was sent again, are those in which it was sent
    in vain. It is about to be sent once more. -/
structure HasAsked (past : List (Round Exchange)) (y : Exchange) : Prop where
  reference : y.reference = .plain (.request .resync)
  quiet : y.interjection = none
  vain : ∃ earlier vain, past = earlier ++ vain ∧ vain.length = y.transfer.resends ∧
    ∀ r ∈ vain, r.IsVain

/-- Asking once more in vain. -/
theorem HasAsked.isVain {past : List (Round Exchange)} (asked : HasAsked past x) (judges : x.Judges r)
    (refused : r.refusal? ≠ none) : ∃ earlier vain, past ++ [r] = earlier ++ vain ∧
      vain.length = x.transfer.resends + 1 ∧ ∀ r ∈ vain, r.IsVain := by
  obtain ⟨earlier, vain, rfl, length, all⟩ := asked.vain
  have last : r.IsVain := by
    refine ⟨?_, refused⟩
    rw [judges.before, outgoing, asked.quiet, Option.getD_none, asked.reference]
  refine ⟨earlier, vain ++ [r], List.append_assoc .., ?_, ?_⟩
  · rw [List.length_append, length, List.length_singleton]
  · intro r' member
    rcases List.mem_append.mp member with before | now
    · exact all r' before
    · rwa [List.mem_singleton.mp now]

theorem hasAsked_of_leads {past : List (Round Exchange)} (judges : x.Judges r)
    (asked : x.reference.pcb = .request .resync → HasAsked past x) (leads : x.Leads r.verdict y)
    (now : y.reference.pcb = .request .resync) : HasAsked (past ++ [r]) y := by
  obtain ⟨quiet, ⟨reference, resends⟩ | ⟨reference, refused, resends⟩⟩ := leads.resync_cases judges now
  · exact ⟨reference, quiet, past ++ [r], [], (List.append_nil _).symm, resends.symm, by simp⟩
  · have asked := asked (reference ▸ now)
    refine ⟨reference.trans asked.reference, quiet, ?_⟩
    rw [resends]
    exact asked.isVain judges refused

/-- What is known of an exchange and its rounds so far, if its counters began at zero. -/
structure IsRecorded (past : List (Round Exchange)) (y : Exchange) : Prop where
  regular : y.IsRegular
  asked : y.reference.pcb = .request .resync → HasAsked past y

theorem IsRecorded.leads {past : List (Round Exchange)} (recorded : IsRecorded past x)
    (judges : x.Judges r) (leads : x.Leads r.verdict y) : IsRecorded (past ++ [r]) y :=
  ⟨recorded.regular.leads judges leads, hasAsked_of_leads judges recorded.asked leads⟩

/-! ## How it ends -/

/-- If no new start could be agreed on, the request for one has been sent as often as it may be. -/
theorem IsRecorded.exists_vain {past : List (Round Exchange)} (recorded : IsRecorded past x)
    (judges : x.Judges r) (ends : x.Ends r.verdict .unanswered y) : ∃ earlier vain,
      past ++ [r] = earlier ++ vain ∧ vain.length = resendLimit + 1 ∧ ∀ r ∈ vain, r.IsVain := by
  have reaction : r.verdict.reaction = .retransmit ∧ x.reference.pcb = .request .resync := by
    generalize ending : Ending.unanswered = e at ends
    cases ends with
    | unanswered reaction _ sent => exact ⟨reaction, sent⟩
    | gaveUp reaction => exact absurd reaction (reaction_ne_hardFail recorded.regular.retried judges)
    | _ => cases ending
  have refused := refused_of_retransmit judges reaction.2 reaction.1
  obtain ⟨-, sent, resends⟩ := recorded.regular.unanswered_of_refused judges refused ends
  rw [← resends]
  exact (recorded.asked sent).isVain judges refused

/-- The card has given the exchange up if it acknowledges that it did. -/
theorem Judges.reaction_eq_abort_iff (judges : x.Judges r) :
    r.verdict.reaction = .abort ↔ r.IsFarewell := by
  have judged := judges.judged
  constructor
  · intro reaction
    generalize r.verdict = v at judged reaction
    cases judged with
    | accepted passed rule =>
      subst reaction
      cases rule with
      | abandoned sent ack =>
        obtain ⟨-, sound, wellFormed⟩ := Sequence.fault?_eq_none_iff.mp passed
        obtain ⟨seq, pcb⟩ := Pcb.isPlainAck_iff.mp ack
        refine ⟨by rw [judges.before]; exact sent, sound, ?_, ack⟩
        change r.received.pcb = _ at pcb
        simpa [Sequence.isWellFormed, pcb] using wellFormed
    | refused _ recovers =>
      subst reaction
      cases recovers with
      | rule _ _ rule => cases rule
  · rintro ⟨sent, sound, empty, ack⟩
    rw [judges.before] at sent
    obtain ⟨seq, pcb⟩ := Pcb.isPlainAck_iff.mp ack
    have passed : x.sequence.fault? r.received = none :=
      Sequence.fault?_eq_none_iff.mpr
        ⟨Frame.isAbsent_of_ack pcb, sound, by simp [Sequence.isWellFormed, pcb, empty]⟩
    rw [judged.eq_of_rule passed (.abandoned sent ack)]

theorem Ends.ending_eq_abort_iff {ending : Ending} (ends : x.Ends r.verdict ending y) :
    ending = .failed .abort ↔ r.verdict.reaction = .abort := by
  cases ends with
  | gaveUp reaction => simp [reaction, Transfer.givenUp]
  | completed reaction => simp [reaction]
  | aborted reaction => simp [reaction]
  | unanswered reaction => simp [reaction, Ending.unanswered]
  | notReset reaction => simp [reaction]

/-! ## Resets of the card -/

section Resets

variable {σ : Type} [Backend σ] {o : Options} {past : List (Round Exchange)}

/-- No round resets the card, but possibly one that finds it never reset before. -/
structure ResetsOnce (rounds : List (Round Exchange)) : Prop where
  few : rounds.countP Round.isReset ≤ 1
  first : ∀ r ∈ rounds, r.isReset = true → r.before.wasReset = false

/-- The card may still be reset, or will not be any more. -/
def IsSpared (past : List (Round Exchange)) (y : Exchange) : Prop :=
  (y.wasReset = false ∧ past.countP Round.isReset = 0) ∨ y.IsSteady

theorem IsSteady.isReset (steady : x.IsSteady) (judges : x.Judges r) : r.isReset = false :=
  Bool.eq_false_iff.mpr fun reset =>
    steady.reaction_ne_resetDevice judges (Round.isReset_iff.mp reset)

theorem ResetsOnce.append (once : ResetsOnce past) (spared : IsSpared past x) (judges : x.Judges r) :
    ResetsOnce (past ++ [r]) := by
  have found : r.isReset = true → x.wasReset = false ∧ past.countP Round.isReset = 0 := by
    intro reset
    rcases spared with never | steady
    · exact never
    · rw [steady.isReset judges] at reset
      cases reset
  refine ⟨?_, fun r' member reset => ?_⟩
  · rw [List.countP_append, List.countP_singleton]
    by_cases reset : r.isReset = true
    · rw [if_pos reset]
      exact Nat.add_le_add_right (Nat.le_of_eq (found reset).2) 1
    · rw [if_neg reset]
      exact once.few
  · rcases List.mem_append.mp member with before | now
    · exact once.first r' before reset
    · rw [List.mem_singleton.mp now] at reset ⊢
      rw [judges.before]
      exact (found reset).1

theorem IsSpared.leads (spared : IsSpared past x) (judges : x.Judges r) (leads : x.Leads r.verdict y) :
    IsSpared (past ++ [r]) y := by
  rcases spared with ⟨wasReset, never⟩ | steady
  · have still (kept : r.isReset = false) : (past ++ [r]).countP Round.isReset = 0 := by
      rw [List.countP_append, never, List.countP_singleton, kept]
      rfl
    cases leads with
    | reset => exact .inr (isSteady_restarted _)
    | restart reaction => exact .inr (isSteady_restarted _)
    | again reaction => exact .inl ⟨wasReset, still (by simp [Round.isReset, reaction])⟩
    | resync reaction => exact .inl ⟨wasReset, still (by simp [Round.isReset, reaction])⟩
    | proceed reaction => exact .inl ⟨wasReset, still (by simp [Round.isReset, reaction])⟩
    | interject reaction => exact .inl ⟨wasReset, still (by simp [Round.isReset, reaction])⟩
  · exact .inr (steady.leads judges leads)

/-- Whatever the counters were at its start, an exchange resets the card once at most. -/
theorem resetsOnce_runFor (purpose : Purpose) (s : Sequence) (t : Transfer) (o : Options) (n : Nat)
    (bus : σ) : ResetsOnce ((start purpose s t).runFor o n bus).rounds := by
  have kept : IsKept fun past y => ResetsOnce past ∧ IsSpared past y := by
    rintro past x r y ⟨once, spared⟩ judges leads
    exact ⟨once.append spared judges, spared.leads judges leads⟩
  have begun : ResetsOnce [] ∧ IsSpared [] (start purpose s t) :=
    ⟨⟨Nat.zero_le 1, by simp⟩, .inl ⟨rfl, rfl⟩⟩
  rcases kept.runFor begun o n bus with
    ⟨-, once, -⟩ | ⟨past, y, r, rounds, ⟨once, spared⟩, judges, -⟩
  · exact once
  · rw [rounds]
    exact once.append spared judges

end Resets

/-! ## A run from its start to its end -/

/-- What is known of an exchange and a card after some rounds. -/
structure Standing (card : ScriptedCard) (past : List (Round Exchange)) (y : Exchange)
    (card' : ScriptedCard) : Prop where
  recorded : IsRecorded past y
  resets : card'.resets = card.resets
  failingResets : card'.failingResets = card.failingResets

variable {o : Options} {card card' card'' : ScriptedCard} {past : List (Round Exchange)}

theorem isRecorded_start (purpose : Purpose) (s : Sequence) (payload buffer : Bytes) :
    IsRecorded [] (start purpose s (.into payload buffer)) := by
  refine ⟨isRegular_start purpose s payload buffer, fun sent => ?_⟩
  cases purpose <;> cases sent

/-- A round in which the card is not reset does not change the card's record of resets. -/
theorem resets_of_round {step : Step Exchange} (next : round o x card = (r, step, card'))
    (spared : r.isReset = false) :
    card'.resets = card.resets ∧ card'.failingResets = card.failingResets := by
  have reaction : r.verdict.reaction ≠ .resetDevice := fun reset =>
    absurd (Round.isReset_iff.mpr reset) (by rw [spared]; exact Bool.false_ne_true)
  simp only [round, Prod.mk.injEq] at next
  obtain ⟨rfl, goes⟩ := next
  have bus := congrArg Prod.snd goes
  rw [follow_bus x reaction] at bus
  obtain ⟨⟨_, _, _, listens⟩, -⟩ := Frame.listen_card o (x.timeout o)
    (Frame.stateAfter ((Frame.send o x.outgoing.frame).run card))
  have converses : (x.converse o card).2 = _ := listens
  rw [← show (x.converse o card).2 = card' from bus, converses]
  exact ⟨rfl, rfl⟩

theorem Standing.resets_of_round {step : Step Exchange} (standing : Standing card past x card')
    (judges : x.Judges r) (next : round o x card' = (r, step, card'')) :
    card''.resets = card.resets ∧ card''.failingResets = card.failingResets := by
  have spared := standing.recorded.regular.steady.isReset judges
  obtain ⟨resets, failingResets⟩ := Exchange.resets_of_round next spared
  exact ⟨resets.trans standing.resets, failingResets.trans standing.failingResets⟩

theorem standing_of_reaches (purpose : Purpose) (s : Sequence) (payload buffer : Bytes)
    (reached : Reaches (round o) (start purpose s (.into payload buffer)) card past y card') :
    Standing card past y card' := by
  refine reached.invariant (P := Standing card) ⟨isRecorded_start .., rfl, rfl⟩ ?_
  intro past x r y card' card'' standing next
  obtain ⟨judges, leads⟩ := leads_of_round next
  obtain ⟨resets, failingResets⟩ := standing.resets_of_round judges next
  exact ⟨standing.recorded.leads judges leads, resets, failingResets⟩

/-- The errors are the frames that were refused. -/
theorem Judges.errors (steady : x.IsSteady) (judges : x.Judges r) :
    r.verdict.transfer.errors = x.transfer.errors + r.isRefused.toNat := by
  have judged := judges.judged
  rw [Round.isRefused, Round.refusal?, judges.before]
  generalize r.verdict = v at judged
  cases judged with
  | accepted passed rule =>
    rw [Transfer.refusal?_eq_none_iff.mpr ⟨passed, _, _, rule⟩, rule.keeps.errors]
    rfl
  | @refused fault _ _ refused recovers =>
    have counted := steady.errors_refusing fault
    rw [refused]
    cases recovers with
    | rule _ _ rule => exact rule.keeps.errors.trans counted
    | _ => exact counted

/-- No round gets anywhere near a reset of the card, and none finds nothing to do. -/
theorem IsRegular.spares (regular : x.IsRegular) (judges : x.Judges r) :
    r.verdict.reaction ≠ .hardFail ∧ r.verdict.reaction ≠ .resetDevice ∧
      r.verdict.transfer.errors < resetLimit := by
  refine ⟨reaction_ne_hardFail regular.retried judges, regular.steady.reaction_ne_resetDevice judges, ?_⟩
  calc r.verdict.transfer.errors ≤ x.transfer.errors + 1 := by
        rw [judges.errors regular.steady]
        exact Nat.add_le_add_left (Bool.toNat_le _) _
    _ ≤ resendLimit + 1 := Nat.succ_le_succ regular.steady.errors_le
    _ < resetLimit := by decide

section Run

variable (purpose : Purpose) (s : Sequence) (payload buffer : Bytes) (o : Options) (card : ScriptedCard)

theorem spares_run (r : Round Exchange)
    (member : r ∈ ((start purpose s (.into payload buffer)).run o card).rounds) :
    r.verdict.reaction ≠ .hardFail ∧ r.verdict.reaction ≠ .resetDevice ∧
      r.verdict.transfer.errors < resetLimit := by
  obtain ⟨-, y, regular, judges⟩ :=
    isKept_isRegular.of_mem_rounds (isRegular_start purpose s payload buffer) member
  exact regular.spares judges

/-- A run comes to an end by one of its rounds. -/
theorem exists_last_round : let course := (start purpose s (.into payload buffer)).run o card
    ∃ past y r, course.rounds = past ++ [r] ∧ IsRecorded past y ∧ y.Judges r ∧
      y.Ends r.verdict course.ending course.last ∧ course.bus.resets = card.resets ∧
      course.bus.failingResets = card.failingResets := by
  obtain ⟨past, y, card', r, rounds, -, reached, last⟩ :=
    (isRegular_start purpose s payload buffer).closed_run o card
  have standing := standing_of_reaches purpose s payload buffer reached
  obtain ⟨judges, ends⟩ := ends_of_round last
  obtain ⟨resets, failingResets⟩ := standing.resets_of_round judges last
  exact ⟨past, y, r, rounds, standing.recorded, judges, ends, resets, failingResets⟩

/-- The ways in which a run comes to an end. -/
theorem ending_run : let course := (start purpose s (.into payload buffer)).run o card
    (∃ response, course.ending = .completed response) ∨ course.ending = .unanswered ∨
      course.ending = .failed .abort := by
  obtain ⟨past, y, r, -, recorded, judges, ends, -⟩ := exists_last_round purpose s payload buffer o card
  exact recorded.regular.ends judges ends

theorem resets_run : ((start purpose s (.into payload buffer)).run o card).bus.resets = card.resets ∧
    ((start purpose s (.into payload buffer)).run o card).bus.failingResets = card.failingResets := by
  obtain ⟨_, _, _, -, -, -, -, resets⟩ := exists_last_round purpose s payload buffer o card
  exact resets

theorem exists_vain_run
    (unanswered : ((start purpose s (.into payload buffer)).run o card).ending = .unanswered) :
    ∃ earlier vain, ((start purpose s (.into payload buffer)).run o card).rounds = earlier ++ vain ∧
      vain.length = resendLimit + 1 ∧ ∀ r ∈ vain, r.IsVain := by
  obtain ⟨past, y, r, rounds, recorded, judges, ends, -⟩ :=
    exists_last_round purpose s payload buffer o card
  rw [unanswered] at ends
  rw [rounds]
  exact recorded.exists_vain judges ends

/-- If the frame of the last round was refused, no new start could be agreed on. -/
theorem unanswered_run {past : List (Round Exchange)} {r : Round Exchange}
    (rounds : ((start purpose s (.into payload buffer)).run o card).rounds = past ++ [r])
    (refused : r.refusal? ≠ none) :
    ((start purpose s (.into payload buffer)).run o card).ending = .unanswered := by
  obtain ⟨past', y, r', rounds', recorded, judges, ends, -⟩ :=
    exists_last_round purpose s payload buffer o card
  obtain rfl : r = r' := List.singleton_inj.mp (List.append_inj' (rounds.symm.trans rounds') rfl).2
  exact (recorded.regular.unanswered_of_refused judges refused ends).1

/-- A run is given up by the card exactly if it says farewell in one of the rounds. -/
theorem abort_run_iff : ((start purpose s (.into payload buffer)).run o card).ending = .failed .abort ↔
    ∃ r ∈ ((start purpose s (.into payload buffer)).run o card).rounds, r.IsFarewell := by
  constructor
  · intro aborted
    obtain ⟨past, y, r, rounds, -, judges, ends, -⟩ := exists_last_round purpose s payload buffer o card
    refine ⟨r, by simp [rounds], ?_⟩
    exact judges.reaction_eq_abort_iff.mp (ends.ending_eq_abort_iff.mp aborted)
  · rintro ⟨r, member, farewell⟩
    refine Course.ending_of_mem_rounds Round.IsFarewell ?_ ?_ farewell member
    · intro x r y card card' farewell next
      obtain ⟨judges, leads⟩ := leads_of_round next
      have reaction := judges.reaction_eq_abort_iff.mpr farewell
      cases leads <;> simp_all
    · intro x r ending y card card' farewell last
      obtain ⟨judges, ends⟩ := ends_of_round last
      exact ends.ending_eq_abort_iff.mpr (judges.reaction_eq_abort_iff.mpr farewell)

end Run

end Exchange

namespace Host

section Run

variable (purpose : Purpose) (s : Sequence) (payload buffer : Bytes) (o : Options) (card : ScriptedCard)

theorem unanswered_run_iff : let course := (start purpose s (.into payload buffer)).run o card
    course.ending = .unanswered ↔ ∃ past vain, course.rounds = past ++ vain ∧
      vain.length = resendLimit + 1 ∧ ∀ r ∈ vain,
        (o.outbound r.before.outgoing).bytes = o.wire (.plain (.request .resync)) ∧
          (r.map view).refusal? ≠ none := by
  intro course
  have rounds : _ = course.rounds.map (Round.map view) :=
    rounds_run_start purpose s (.into payload buffer) o card
  have ending : _ = course.ending := ending_run_start purpose s (.into payload buffer) o card
  constructor
  · intro unanswered
    obtain ⟨_, _, split, length, all⟩ := Exchange.exists_vain_run purpose s payload buffer o card
      (ending.trans unanswered)
    obtain ⟨earlier, vain, split', rfl, rfl⟩ := List.map_eq_append_iff.mp (rounds.symm.trans split)
    refine ⟨earlier, vain, split', (List.length_map _).symm.trans length, fun r member => ?_⟩
    obtain ⟨asked, refused⟩ := all _ (List.mem_map_of_mem member)
    have member' : r ∈ course.rounds := split' ▸ List.mem_append_right _ member
    have ready : r.before.IsReady := isReady_of_mem_rounds (isReady_start ..) member'
    exact ⟨bytes_outbound_of_outgoing ready asked, refused⟩
  · rintro ⟨earlier, vain, split, length, all⟩
    -- The last of the rounds in vain is the one that ended the exchange.
    obtain rfl | ⟨front, last, rfl⟩ := List.eq_nil_or_concat vain
    · cases length
    rw [split, List.concat_eq_append, ← List.append_assoc, List.map_append] at rounds
    rw [← ending]
    exact Exchange.unanswered_run purpose s payload buffer o card rounds (all last (by simp)).2

theorem abort_run_iff : let course := (start purpose s (.into payload buffer)).run o card
    course.ending = .failed .abort ↔ ∃ r ∈ course.rounds,
      r.before.buffers.reference.pcb = .response .abort ∧ r.received.isSound = true ∧
        r.received.len = 0 ∧ r.received.pcb.isPlainAck = true := by
  intro course
  have aborts := Exchange.abort_run_iff purpose s payload buffer o card
  rw [ending_run_start, rounds_run_start] at aborts
  rw [show course.ending = _ from rfl, aborts]
  constructor
  · rintro ⟨_, member, farewell⟩
    obtain ⟨r, taken, rfl⟩ := List.mem_map.mp member
    exact ⟨r, taken, farewell.sent, farewell.sound, farewell.empty, farewell.ack⟩
  · rintro ⟨r, member, sent, sound, empty, ack⟩
    exact ⟨_, List.mem_map_of_mem member, sent, sound, empty, ack⟩

end Run

end Host

/-- An exchange with a scripted card succeeds, or fails because no new start could be agreed on or
    because the card has given it up. The first failure comes about exactly if the last four frames that
    were sent asked for a new start and what came back was refused, the second exactly if the card has
    acknowledged the end of an exchange that it had asked for. The card is never reset, and there is
    something to be done in every round.

    An exchange that starts in any other state resets the card once at most, and never asks for a reset
    again.

    A round sends what a card hears, and receives what its next reply is read as (`Host.played_runFor`). -/
theorem Host.ending_of_run (purpose : Purpose) (s : Sequence) (payload buffer : Bytes) (o : Options)
    (card : ScriptedCard) :
    let course := (start purpose s (.into payload buffer)).run o card
    ((∃ response, course.ending = .completed response) ∨ course.ending = .unanswered ∨
        course.ending = .failed .abort) ∧
      (course.ending = .unanswered ↔ ∃ past vain, course.rounds = past ++ vain ∧ vain.length = 4 ∧
        ∀ r ∈ vain, (o.outbound r.before.outgoing).bytes = o.wire (.plain (.request .resync)) ∧
          (r.map view).refusal? ≠ none) ∧
      (course.ending = .failed .abort ↔ ∃ r ∈ course.rounds,
        r.before.buffers.reference.pcb = .response .abort ∧ r.received.isSound = true ∧
          r.received.len = 0 ∧ r.received.pcb.isPlainAck = true) ∧
      (∀ r ∈ course.rounds, r.verdict.reaction ≠ .hardFail ∧ r.verdict.reaction ≠ .resetDevice ∧
        r.verdict.transfer.errors < resetLimit) ∧
      course.bus.resets = card.resets ∧ course.bus.failingResets = card.failingResets ∧
      ∀ (t : Transfer) (n : Nat), let rounds := ((start purpose s t).runFor o n card).rounds
        rounds.countP Round.isReset ≤ 1 ∧ ∀ r ∈ rounds, r.isReset = true → r.before.wasReset = false := by
  intro course
  have ending := Exchange.ending_run purpose s payload buffer o card
  have resets := Exchange.resets_run purpose s payload buffer o card
  simp only [ending_run_start] at ending
  rw [bus_run_start] at resets
  refine ⟨ending, unanswered_run_iff .., abort_run_iff .., fun r member => ?_, resets.1, resets.2,
    fun t n => ?_⟩
  · refine Exchange.spares_run purpose s payload buffer o card (r.map view) ?_
    rw [rounds_run_start]
    exact List.mem_map_of_mem member
  · intro rounds
    have once := Exchange.resetsOnce_runFor purpose s t o n card
    rw [runFor_start] at once
    refine ⟨?_, fun r member reset => once.first _ (List.mem_map_of_mem member) reset⟩
    have few := once.few
    rwa [show (Course.map view _).rounds = rounds.map (Round.map view) from rfl, List.countP_map] at few

end CardLink
