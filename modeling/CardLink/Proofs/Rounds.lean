import CardLink.Exchange.Run
import CardLink.Proofs.Courses
import CardLink.Proofs.Rules

/-!
# What a round leads to

`Exchange.Leads` lists the ways in which an exchange goes on after a verdict, and `Exchange.Ends` the
ways in which it ends. `leads_of_round` and `ends_of_round` say that there are no others; with the
tables of `CardLink.Proofs.Rules` they are all that proofs about exchanges need to know of a round. What
is kept by every round that leads on (`IsKept`) is true before each round of an exchange.

What is said of rounds is said of the bus. Whatever the backend, it is handed the blocks that the rounds
send (`transmissions_runFor`), and if it is a scripted card, what they receive is what it replies
(`played_runFor`).

An example of what is kept are the counters. An exchange that began with its counters at zero is *steady*:
they stay so low that the card is never reset.
-/

namespace CardLink.Exchange

variable {σ : Type} [Backend σ] {o : Options} {x y : Exchange} {r : Round Exchange} {bus bus' : σ}

/-- How an exchange goes on after a verdict. -/
inductive Leads (x : Exchange) (v : Verdict) : Exchange → Prop where
  -- The reference is sent again
  | again (reaction : v.reaction = .retransmit) (few : v.transfer.resends < resendLimit) :
      Leads x v { x.judged v with transfer := v.transfer.resending }
  -- The reference has been sent too often
  | resync (reaction : v.reaction = .retransmit) (many : resendLimit ≤ v.transfer.resends)
      (sent : x.reference.pcb ≠ .request .resync) :
      Leads x v ((x.judged v).referring (.plain (.request .resync)))
  -- A new reference is sent
  | proceed {next} (reaction : v.reaction = .proceed next) : Leads x v ((x.judged v).referring next)
  -- A block is sent in place of the reference
  | interject {next} (reaction : v.reaction = .interject next) :
      Leads x v { x.judged v with interjection := some next }
  -- Both sides have agreed to start again
  | restart (reaction : v.reaction = .resetSession) : Leads x v (x.judged v).restarted
  -- The card was reset
  | reset (reaction : v.reaction = .resetDevice) (first : x.wasReset = false) :
      Leads x v { x.judged v with wasReset := true }.restarted

/-- How an exchange ends with a verdict. -/
inductive Ends (x : Exchange) (v : Verdict) : Ending → Exchange → Prop where
  | completed (reaction : v.reaction = .complete) :
      Ends x v (.completed v.transfer.response) (x.judged v)
  | aborted (reaction : v.reaction = .abort) : Ends x v (.failed .abort) (x.judged v)
  | gaveUp (reaction : v.reaction = .hardFail) :
      Ends x v v.transfer.givenUp.1 { x.judged v with transfer := v.transfer.givenUp.2 }
  -- The request for a new start has been sent too often
  | unanswered (reaction : v.reaction = .retransmit) (many : resendLimit ≤ v.transfer.resends)
      (sent : x.reference.pcb = .request .resync) : Ends x v .unanswered (x.judged v)
  -- The card was reset before, or can not be reset
  | notReset (reaction : v.reaction = .resetDevice) :
      Ends x v (.failed .deviceReset) (x.judged v)

/-- An exchange is completed by the reaction that says so, with the response as it is then. -/
theorem Ends.of_completed {v : Verdict} {response : Bytes} (ends : x.Ends v (.completed response) y) :
    v.reaction = .complete ∧ response = v.transfer.response ∧ y = x.judged v := by
  generalize ending : Ending.completed response = e at ends
  cases ends with
  | completed reaction =>
    cases ending
    exact ⟨reaction, rfl, rfl⟩
  | _ => cases ending

theorem Ends.ne_unsettled {v : Verdict} {ending : Ending} (ends : x.Ends v ending y) :
    ending ≠ .unsettled := by
  cases ends <;> exact Ending.noConfusion

theorem Leads.reaction_ne_complete {v : Verdict} (leads : x.Leads v y) : v.reaction ≠ .complete := by
  cases leads <;> simp_all

theorem resend_cases (v : Verdict) (reaction : v.reaction = .retransmit) :
    (∃ y, (x.judged v).resend = .going y ∧ x.Leads v y) ∨
      ∃ ending y, (x.judged v).resend = .ended ending y ∧ x.Ends v ending y := by
  have transfer : (x.judged v).transfer = v.transfer := rfl
  have reference : (x.judged v).reference = x.reference := rfl
  unfold resend
  rw [transfer, reference]
  by_cases few : v.transfer.resends < resendLimit
  · rw [if_pos few]
    exact .inl ⟨_, rfl, .again reaction few⟩
  · rw [if_neg few]
    have many := Nat.le_of_not_lt few
    by_cases sent : x.reference.pcb = .request .resync
    · rw [if_pos sent]
      exact .inr ⟨_, _, rfl, .unanswered reaction many sent⟩
    · rw [if_neg sent]
      exact .inl ⟨_, rfl, .resync reaction many sent⟩

theorem resetCard_cases (v : Verdict) (reaction : v.reaction = .resetDevice) (bus : σ) :
    (∃ y bus', (x.judged v).resetCard bus = (.going y, bus') ∧ x.Leads v y) ∨
      ∃ ending y bus', (x.judged v).resetCard bus = (.ended ending y, bus') ∧ x.Ends v ending y := by
  have wasReset : (x.judged v).wasReset = x.wasReset := rfl
  unfold resetCard
  rw [wasReset]
  by_cases again : x.wasReset = true
  · rw [if_pos again]
    exact .inr ⟨_, _, _, rfl, .notReset reaction⟩
  · rw [if_neg again]
    match (Backend.reset : Bus σ Unit).run bus with
    | .ok _ bus => exact .inl ⟨_, _, rfl, .reset reaction (by simpa using again)⟩
    | .error _ bus => exact .inr ⟨_, _, _, rfl, .notReset reaction⟩

/-- Every verdict leads on or ends the exchange in one of the ways listed. -/
theorem follow_cases (x : Exchange) (v : Verdict) (bus : σ) :
    (∃ y bus', x.follow v bus = (.going y, bus') ∧ x.Leads v y) ∨
      ∃ ending y bus', x.follow v bus = (.ended ending y, bus') ∧ x.Ends v ending y := by
  unfold follow
  cases reaction : v.reaction with
  | complete => exact .inr ⟨_, _, _, rfl, .completed reaction⟩
  | abort => exact .inr ⟨_, _, _, rfl, .aborted reaction⟩
  | hardFail => exact .inr ⟨_, _, _, rfl, .gaveUp reaction⟩
  | resetDevice => exact resetCard_cases v reaction bus
  | resetSession => exact .inl ⟨_, _, rfl, .restart reaction⟩
  | retransmit =>
    rcases resend_cases (x := x) v reaction with ⟨y, leads, how⟩ | ⟨ending, y, ends, how⟩
    · exact .inl ⟨y, bus, congrArg (·, bus) leads, how⟩
    · exact .inr ⟨ending, y, bus, congrArg (·, bus) ends, how⟩
  | proceed next => exact .inl ⟨_, _, rfl, .proceed reaction⟩
  | interject next => exact .inl ⟨_, _, rfl, .interject reaction⟩

/-- To act on a verdict changes the bus by a reset of the card or not at all. -/
theorem follow_bus_cases (x : Exchange) (v : Verdict) (bus : σ) : (x.follow v bus).2 = bus ∨
    v.reaction = .resetDevice ∧
      (x.follow v bus).2 = Frame.stateAfter ((Backend.reset : Bus σ Unit).run bus) := by
  unfold follow
  cases reaction : v.reaction with
  | resetDevice =>
    unfold resetCard
    dsimp only
    split
    · exact .inl rfl
    · cases result : (Backend.reset : Bus σ Unit).run bus <;> exact .inr ⟨rfl, rfl⟩
  | _ => exact .inl rfl

theorem follow_bus (x : Exchange) {v : Verdict} (spared : v.reaction ≠ .resetDevice) (bus : σ) :
    (x.follow v bus).2 = bus :=
  (x.follow_bus_cases v bus).resolve_right fun ⟨reset, _⟩ => spared reset

/-- The verdict of a round was reached on what the round began with. -/
structure Judges (x : Exchange) (r : Round Exchange) : Prop where
  before : r.before = x
  judged : Judged x.transfer.waited x.sequence x.reference r.received r.verdict

theorem leads_of_round (next : round o x bus = (r, .going y, bus')) :
    x.Judges r ∧ x.Leads r.verdict y := by
  simp only [round, Prod.mk.injEq] at next
  obtain ⟨rfl, goes⟩ := next
  refine ⟨⟨rfl, judged_judge ..⟩, ?_⟩
  rcases follow_cases x _ (x.converse o bus).2 with ⟨z, _, leads, how⟩ | ⟨_, _, _, ends, -⟩
  · rw [leads] at goes
    cases goes
    exact how
  · rw [ends] at goes
    cases goes

theorem ends_of_round {ending : Ending} (last : round o x bus = (r, .ended ending y, bus')) :
    x.Judges r ∧ x.Ends r.verdict ending y := by
  simp only [round, Prod.mk.injEq] at last
  obtain ⟨rfl, goes⟩ := last
  refine ⟨⟨rfl, judged_judge ..⟩, ?_⟩
  rcases follow_cases x _ (x.converse o bus).2 with ⟨_, _, leads, -⟩ | ⟨_, _, _, ends, how⟩
  · rw [leads] at goes
    cases goes
  · rw [ends] at goes
    cases goes
    exact how

/-! ## What rounds keep -/

/-- Something that is said of an exchange and its rounds so far, and stays true with each round that leads
    on. -/
def IsKept (P : List (Round Exchange) → Exchange → Prop) : Prop :=
  ∀ past x r y, P past x → x.Judges r → x.Leads r.verdict y → P (past ++ [r]) y

namespace IsKept

variable {P : List (Round Exchange) → Exchange → Prop} {past rest : List (Round Exchange)} {n : Nat}

theorem of_reaches (kept : IsKept P) (begun : P [] x) (reached : Reaches (round o) x bus past y bus') :
    P past y :=
  reached.invariant (P := fun past y _ => P past y) begun fun holds next =>
    kept _ _ _ _ holds (leads_of_round next).1 (leads_of_round next).2

theorem of_split (kept : IsKept P) (begun : P [] x)
    (split : (x.runFor o n bus).rounds = past ++ r :: rest) : ∃ y, P past y ∧ y.Judges r := by
  obtain ⟨y, bus', reached, rfl⟩ := Course.exists_reaches_of_split split
  exact ⟨y, kept.of_reaches begun reached, rfl, judged_judge ..⟩

theorem of_mem_rounds (kept : IsKept P) (begun : P [] x) (member : r ∈ (x.runFor o n bus).rounds) :
    ∃ past y, P past y ∧ y.Judges r := by
  obtain ⟨past, rest, split⟩ := List.append_of_mem member
  exact ⟨past, kept.of_split begun split⟩

/-- It is still true when an exchange is left, and was true before the round that ended it. -/
theorem runFor (kept : IsKept P) (begun : P [] x) (o : Options) (n : Nat) (bus : σ) :
    let course := x.runFor o n bus
    (course.ending = .unsettled ∧ P course.rounds course.last) ∨
      ∃ past y r, course.rounds = past ++ [r] ∧ P past y ∧ y.Judges r ∧
        y.Ends r.verdict course.ending course.last := by
  rcases Course.upTo_cases (round o) n x bus with
    ⟨reached, unsettled, -⟩ | ⟨past, y, bus', r, rounds, -, reached, last⟩
  · exact .inl ⟨unsettled, kept.of_reaches begun reached⟩
  · obtain ⟨judges, ends⟩ := ends_of_round last
    exact .inr ⟨past, y, r, rounds, kept.of_reaches begun reached, judges, ends⟩

end IsKept

/-! ## New references -/

/-- The new references to which a round can lead. -/
inductive Refers (x : Exchange) (r : Round Exchange) : Block → Prop where
  -- A part of the response is acknowledged
  | ack {c} (awaits : x.reference.pcb.AwaitsInfo c) (info : r.received.pcb = .info c true)
      (transfer : r.verdict.transfer = x.transfer.waited.taking r.received.block) :
      Refers x r (.plain (.ack !c))
  -- The card gets the next part of the payload
  | next {seq} (passed : x.sequence.fault? r.received = none)
      (sent : x.reference.pcb = .info seq true) (ack : r.received.pcb = .ack !seq)
      (transfer : r.verdict.transfer = x.transfer.waited.advanced) :
      Refers x r (x.transfer.waited.nextBlock !seq)
  -- The card gives a chain up
  | abort (transfer : r.verdict.transfer = x.transfer.waited) : Refers x r (.plain (.response .abort))
  -- Too many frames were refused
  | resync (fault : BlockFault) (transfer : r.verdict.transfer = x.transfer.waited.refusing fault) :
      Refers x r (.plain (.request .resync))

theorem refers_of_proceed (judges : x.Judges r) {next : Block}
    (reaction : r.verdict.reaction = .proceed next) : x.Refers r next := by
  have judged := judges.judged
  generalize verdict : r.verdict = v at judged reaction
  cases judged with
  | accepted passed rule =>
    subst reaction
    cases rule with
    | part awaits info => exact .ack awaits info (by rw [verdict])
    | next sent ack => exact .next passed sent ack (by rw [verdict])
    | yield => exact .abort (by rw [verdict])
  | refused _ recovers =>
    subst reaction
    cases recovers with
    | resync => exact .resync _ (by rw [verdict])
    | rule _ _ rule => cases rule

/-- The blocks that a round can have sent once in place of the reference. -/
inductive Interjects (x : Exchange) (r : Round Exchange) : Block → Prop where
  -- A refused frame is reported
  | report {seq more} (fault : BlockFault) (sent : x.reference.pcb = .info seq more)
      (transfer : r.verdict.transfer = x.transfer.waited.refusing fault) :
      Interjects x r (.plain (fault.report seq))
  -- The card asks for a block after the last one
  | nudge {seq} (sent : x.reference.pcb = .info seq false)
      (transfer : r.verdict.transfer = x.transfer.waited) : Interjects x r (.plain (.ack seq))
  -- The card gets more time
  | wait {seq factor} (sent : x.reference.pcb = .info seq false) (sound : r.received.isSound = true)
      (asked : r.received.block = .valued (.request .wtx) factor)
      (transfer : r.verdict.transfer = { x.transfer.waited with wait := .ofByte factor }) :
      Interjects x r (.valued (.response .wtx) factor)
  -- The card gets blocks of another size
  | resize {ifs : Ifs} (sent : x.reference.pcb.isInfo ∨ x.reference.pcb.isPlainAck)
      (sound : r.received.isSound = true)
      (asked : r.received.block = .valued (.request .ifs) ifs.val)
      (transfer : r.verdict.transfer = { x.transfer.waited with ifs }) :
      Interjects x r (.valued (.response .ifs) ifs.val)

theorem interjects_of_interject (judges : x.Judges r) {next : Block}
    (reaction : r.verdict.reaction = .interject next) : x.Interjects r next := by
  have judged := judges.judged
  generalize verdict : r.verdict = v at judged reaction
  cases judged with
  | accepted passed rule =>
    obtain ⟨-, sound, -⟩ := Sequence.fault?_eq_none_iff.mp passed
    subst reaction
    cases rule with
    | nudge sent => exact .nudge sent (by rw [verdict])
    | wait sent wtx =>
      obtain ⟨factor, asked⟩ := Sequence.exists_value_of_passed passed wtx rfl
      rw [asked] at verdict ⊢
      exact .wait sent sound asked (by rw [verdict])
    | @resize _ ifs sent request size =>
      obtain ⟨value, asked⟩ := Sequence.exists_value_of_passed passed request rfl
      rw [asked] at size
      obtain rfl := Ifs.val_of_ofByte? size
      exact .resize sent sound asked (by rw [verdict])
  | refused _ recovers =>
    subst reaction
    cases recovers with
    | rule _ _ rule =>
      cases rule with
      | report sent => exact .report _ sent (by rw [verdict])

theorem isInfo_of_interject (judges : x.Judges r) {next : Block}
    (reaction : r.verdict.reaction = .interject next) : next.pcb.isInfo = false := by
  cases interjects_of_interject judges reaction <;> rfl

theorem interjection_of_leads (judges : x.Judges r) (leads : x.Leads r.verdict y) :
    ∀ b, y.interjection = some b → b.pcb.isInfo = false := by
  intro b interjection
  cases leads with
  | interject reaction =>
    cases interjection
    exact isInfo_of_interject judges reaction
  | _ => cases interjection

/-- A part of the payload is only sent as the reference. -/
theorem outgoing_of_info (quiet : ∀ b, x.interjection = some b → b.pcb.isInfo = false)
    (info : x.outgoing.pcb.isInfo = true) : x.outgoing = x.reference := by
  unfold outgoing at info ⊢
  cases interjection : x.interjection with
  | none => rfl
  | some b =>
    rw [interjection, Option.getD_some, quiet b interjection] at info
    cases info

/-- Whatever is not done for the sake of a block sent in between leaves the wait and the block size as they
    are. -/
theorem Judges.terms (judges : x.Judges r) (other : ∀ next, r.verdict.reaction ≠ .interject next) :
    r.verdict.transfer.wait = .one ∧ r.verdict.transfer.ifs = x.transfer.ifs := by
  have judged := judges.judged
  have taking (b : Block) : (x.transfer.waited.taking b).wait = .one ∧
      (x.transfer.waited.taking b).ifs = x.transfer.ifs :=
    (x.transfer.waited.terms_taking b).2.symm
  generalize r.verdict = v at judged other
  cases judged with
  | accepted _ rule =>
    cases rule with
    | last => exact taking _
    | part => exact taking _
    | wait => exact absurd rfl (other _)
    | resize => exact absurd rfl (other _)
    | _ => exact ⟨rfl, rfl⟩
  | refused _ recovers =>
    cases recovers with
    | rule _ _ rule => cases rule <;> exact ⟨rfl, rfl⟩
    | _ => exact ⟨rfl, rfl⟩

/-- The references of an exchange that sends a payload. -/
inductive IsTransceived : Pcb → Prop where
  | info {seq more} : IsTransceived (.info seq more)
  | ack {seq} : IsTransceived (.ack seq)
  | resync : IsTransceived (.request .resync)
  | abort : IsTransceived (.response .abort)

theorem isTransceived_of_refers {next : Block} (refers : x.Refers r next) : IsTransceived next.pcb := by
  cases refers with
  | ack => exact .ack
  | next => exact .info
  | abort => exact .abort
  | resync => exact .resync

theorem isTransceived_restarted (transceives : x.purpose = .transceive) :
    IsTransceived x.restarted.reference.pcb := by
  rw [show x.restarted.reference = x.purpose.firstBlock .fresh x.transfer.rewound from rfl, transceives]
  exact .info

theorem isTransceived_of_leads (judges : x.Judges r) (leads : x.Leads r.verdict y)
    (transceives : x.purpose = .transceive) (sent : IsTransceived x.reference.pcb) :
    IsTransceived y.reference.pcb := by
  cases leads with
  | again => exact sent
  | resync => exact .resync
  | proceed reaction => exact isTransceived_of_refers (refers_of_proceed judges reaction)
  | interject => exact sent
  | restart => exact isTransceived_restarted transceives
  | reset => exact isTransceived_restarted transceives

/-! ## Counters -/

/-- The counters are as low as they stay if they begin at zero. -/
def IsSteady (x : Exchange) : Prop :=
  if x.reference.pcb = .request .resync then
    x.transfer.errors ≤ x.transfer.resends ∧ x.transfer.resends ≤ resendLimit
  else x.transfer.errors < resyncLimit

theorem isSteady_of_zero (errors : x.transfer.errors = 0) (resends : x.transfer.resends = 0) :
    x.IsSteady := by
  unfold IsSteady
  split
  · simp [errors, resends]
  · simp [errors, resyncLimit]

theorem IsSteady.errors_le (steady : x.IsSteady) : x.transfer.errors ≤ resendLimit := by
  unfold IsSteady at steady
  split at steady
  · exact Nat.le_trans steady.1 steady.2
  · exact Nat.le_of_lt steady

theorem errors_begun (purpose : Purpose) (t : Transfer) : (purpose.begun t).errors = t.errors := by
  cases purpose <;> rfl

theorem resends_begun (purpose : Purpose) (t : Transfer) : (purpose.begun t).resends = t.resends := by
  cases purpose <;> rfl

theorem isSteady_start (purpose : Purpose) (s : Sequence) (payload buffer : Bytes) :
    (start purpose s (.into payload buffer)).IsSteady :=
  isSteady_of_zero (errors_begun ..) (resends_begun ..)

theorem errors_restarted (x : Exchange) : x.restarted.transfer.errors = 0 := errors_begun ..

theorem resends_restarted (x : Exchange) : x.restarted.transfer.resends = 0 := resends_begun ..

theorem isSteady_restarted (x : Exchange) : x.restarted.IsSteady :=
  isSteady_of_zero x.errors_restarted x.resends_restarted

theorem IsSteady.errors_refusing (steady : x.IsSteady) (fault : BlockFault) :
    (x.transfer.waited.refusing fault).errors = x.transfer.errors + 1 := by
  have few := steady.errors_le
  have : resendLimit = 3 := rfl
  have : UInt32.size = 4294967296 := rfl
  change (x.transfer.errors + 1) % UInt32.size = _
  exact Nat.mod_eq_of_lt (by omega)

/-- The counters never get so high that the card is reset. -/
theorem IsSteady.reaction_ne_resetDevice (steady : x.IsSteady) (judges : x.Judges r) :
    r.verdict.reaction ≠ .resetDevice := by
  intro reset
  have judged := judges.judged
  generalize r.verdict = v at judged reset
  cases judged with
  | accepted passed rule => subst reset; cases rule
  | @refused fault _ _ _ recovers =>
    subst reset
    cases recovers with
    | reset many =>
      have few := steady.errors_le
      rw [steady.errors_refusing] at many
      have : resendLimit = 3 := rfl
      have : resetLimit = 6 := rfl
      omega
    | rule _ _ rule => cases rule

theorem IsSteady.leads (steady : x.IsSteady) (judges : x.Judges r) (leads : x.Leads r.verdict y) :
    y.IsSteady := by
  have judged := judges.judged
  generalize r.verdict = v at judged leads
  cases leads with
  | resync => exact isSteady_of_zero rfl rfl
  | proceed => exact isSteady_of_zero rfl rfl
  | restart => exact isSteady_restarted _
  | reset => exact isSteady_restarted _
  -- Sending again is the one way on that lets both counters rise.
  | again reaction few =>
    cases judged with
    | accepted passed rule =>
      subst reaction
      cases rule with
      | again sent =>
        simp only [IsSteady, sent, reduceCtorEq, if_false] at steady
        simp only [IsSteady, judged, sent, reduceCtorEq, if_false]
        exact steady
    | @refused fault _ _ _ recovers =>
      subst reaction
      cases recovers with
      | rule _ fewer rule =>
        cases rule with
        | «repeat» =>
          by_cases resync : x.reference.pcb = .request .resync
          -- Every error after a request for a new start is followed by one repetition of it.
          · have errors := steady.errors_refusing fault
            simp only [IsSteady, resync, if_true] at steady
            simp only [IsSteady, judged, resync, if_true, Transfer.resending]
            exact ⟨by rw [errors]; exact Nat.succ_le_succ steady.1, few⟩
          · simp only [IsSteady, judged, resync, if_false]
            exact fewer resync
  | interject reaction =>
    cases judged with
    | accepted passed rule =>
      have keeps := rule.keeps
      subst reaction
      have sent : x.reference.pcb ≠ .request .resync := by
        intro resync
        cases rule <;> simp_all [Pcb.isInfo, Pcb.isPlainAck]
      simp only [IsSteady, sent, if_false] at steady
      simp only [IsSteady, judged, sent, if_false, keeps.errors]
      exact steady
    | refused _ recovers =>
      subst reaction
      cases recovers with
      | rule _ fewer rule =>
        cases rule with
        | report sent =>
          have resync : x.reference.pcb ≠ .request .resync := by rw [sent]; simp
          simp only [IsSteady, judged, resync, if_false]
          exact fewer resync

end CardLink.Exchange
