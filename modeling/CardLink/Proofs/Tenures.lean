import CardLink.Proofs.Failures
import CardLink.Proofs.Stretches
import Mathlib.Data.List.DropRight

/-!
# How often a block is sent

The *tenure* of a block are the rounds in which it is the reference, from the one in which it was sent
first to the one that ended the exchange or made another block the reference. In some of its rounds the
block is sent again, in others a block is interjected.

Two counters of the transfer bound a tenure. They begin it at zero, and `IsCounted` says what they count:
the frames that were refused, and the demands to send the block again. So a block is sent four times at
most, and a new start is asked for as soon as three frames were refused or the block was demanded again
four times (`sends_of_tenure`).
-/

namespace CardLink

/-! ## Tenures -/

theorem countP_concat {α : Type} (p : α → Bool) (l : List α) (a : α) :
    (l ++ [a]).countP p = l.countP p + (p a).toNat := by
  rw [List.countP_append, List.countP_singleton]
  cases p a <;> rfl

namespace Round

/-- Some rounds in a row, between others, are those of one tenure of a block. -/
structure IsTenure {α : Type} (reference : α → Block) (b : Block) (past tenure rest : List (Round α)) :
    Prop where
  nonempty : tenure ≠ []
  held : ∀ r ∈ tenure, reference r.before = b
  begins : ∀ r ∈ past.getLast?, reference r.before ≠ b
  ends : ∀ r ∈ rest.head?, reference r.before ≠ b

theorem IsTenure.map {α β : Type} (view : α → β) {reference : β → Block} {b : Block}
    {past tenure rest : List (Round α)}
    (held : IsTenure (fun x => reference (view x)) b past tenure rest) :
    IsTenure reference b (past.map (Round.map view)) (tenure.map (Round.map view))
      (rest.map (Round.map view)) where
  nonempty := by simpa using held.nonempty
  held := by
    intro r member
    obtain ⟨r', member', rfl⟩ := List.mem_map.mp member
    exact held.held r' member'
  begins := by
    intro r last
    rw [List.getLast?_map] at last
    obtain ⟨r', last', rfl⟩ := Option.map_eq_some_iff.mp last
    exact held.begins r' last'
  ends := by
    intro r first
    rw [List.head?_map] at first
    obtain ⟨r', first', rfl⟩ := Option.map_eq_some_iff.mp first
    exact held.ends r' first'

/-- The reference itself is sent in the round, and not a block in its place. -/
def isSend (r : Round Exchange) : Bool := r.before.interjection.isNone

/-- The reference is to be sent again after the round. -/
def isDemand {α : Type} (r : Round α) : Bool := r.verdict.reaction == .retransmit

theorem isDemand_iff {α : Type} {r : Round α} :
    r.isDemand = true ↔ r.verdict.reaction = .retransmit := beq_iff_eq

theorem isDemand_of_ne {α : Type} {r : Round α} (other : r.verdict.reaction ≠ .retransmit) :
    r.isDemand = false := beq_eq_false_iff_ne.mpr other

/-- The last rounds in which a block was the reference. -/
def lastTenure (b : Block) (past : List (Round Exchange)) : List (Round Exchange) :=
  past.rtakeWhile fun r => r.before.reference = b

theorem lastTenure_of_ne {b : Block} {r : Round Exchange} (other : r.before.reference ≠ b)
    (past : List (Round Exchange)) : lastTenure b (past ++ [r]) = [] := by
  rw [lastTenure, List.rtakeWhile_concat_neg]
  simpa using other

theorem lastTenure_of_eq {b : Block} {r : Round Exchange} (same : r.before.reference = b)
    (past : List (Round Exchange)) : lastTenure b (past ++ [r]) = lastTenure b past ++ [r] := by
  rw [lastTenure, List.rtakeWhile_concat_pos]
  · rfl
  · simpa using same

/-- The rounds of a tenure that have been so far are found at the end of all rounds so far. -/
theorem lastTenure_append {b : Block} {past tenure : List (Round Exchange)}
    (begins : ∀ r ∈ past.getLast?, r.before.reference ≠ b) (held : ∀ r ∈ tenure, r.before.reference = b) :
    lastTenure b (past ++ tenure) = tenure := by
  induction tenure using List.reverseRecOn with
  | nil =>
    rcases List.eq_nil_or_concat past with rfl | ⟨earlier, last, rfl⟩
    · rfl
    · rw [List.append_nil, List.concat_eq_append]
      exact lastTenure_of_ne (begins last (by simp)) earlier
  | append_singleton front last ih =>
    rw [← List.append_assoc, lastTenure_of_eq (held last (by simp)),
      ih fun r member => held r (List.mem_append_left _ member)]

end Round

/-! ## What the counters count -/

namespace Exchange

variable {x y : Exchange} {r : Round Exchange} {past : List (Round Exchange)}

/-- A new reference is never the one before it. -/
theorem pcb_ne_of_proceed (judges : x.Judges r) {next : Block}
    (reaction : r.verdict.reaction = .proceed next) : next.pcb ≠ x.reference.pcb := by
  have judged := judges.judged
  generalize r.verdict = v at judged reaction
  cases judged with
  | accepted _ rule =>
    subst reaction
    cases rule with
    | @part _ c awaits =>
      change Pcb.ack (!c) ≠ x.reference.pcb
      generalize x.reference.pcb = sent at awaits
      cases awaits <;> simp
    | next sent =>
      rw [sent, Transfer.pcb_nextBlock]
      simp
    | yield sent =>
      rcases sent with ⟨seq, sent⟩ | ⟨seq, other, parity, sent⟩ <;> rw [sent] <;> exact Pcb.noConfusion
  | refused _ recovers =>
    subst reaction
    cases recovers with
    | resync _ sent => exact sent.symm
    | rule _ _ rule => cases rule

/-- What becomes of the reference after a round. -/
inductive Turns (x : Exchange) (r : Round Exchange) (y : Exchange) : Prop where
  -- It stays. If it was demanded again it is sent, and otherwise a block in its place.
  | stays (same : y.reference = x.reference) (errors : y.transfer.errors = r.verdict.transfer.errors)
      (resends : y.transfer.resends = x.transfer.resends + r.isDemand.toNat)
      (few : r.isDemand = true → x.transfer.resends < resendLimit)
      (quiet : y.interjection.isNone = r.isDemand)
  -- Another block takes its place
  | next (other : y.reference.pcb ≠ x.reference.pcb) (errors : y.transfer.errors = 0)
      (resends : y.transfer.resends = 0) (quiet : y.interjection = none)

theorem turns_of_leads (regular : x.IsRegular) (judges : x.Judges r) (leads : x.Leads r.verdict y) :
    x.Turns r y := by
  cases leads with
  | again reaction few =>
    have demand := Round.isDemand_iff.mpr reaction
    rw [judges.resends] at few
    refine .stays rfl rfl ?_ (fun _ => few) demand.symm
    rw [demand]
    exact congrArg (· + 1) judges.resends
  | interject reaction =>
    have demand := Round.isDemand_of_ne (r := r) (by simp [reaction])
    refine .stays rfl rfl ?_ (by simp [demand]) demand.symm
    rw [demand]
    exact judges.resends
  | resync _ _ sent => exact .next sent.symm rfl rfl rfl
  | proceed reaction => exact .next (pcb_ne_of_proceed judges reaction) rfl rfl rfl
  | restart reaction =>
    obtain ⟨sent, -⟩ := judges.isRestart_iff.mp (Round.isRestart_iff.mpr reaction)
    have other := reference_restarted_ne_resync (x.judged r.verdict)
    rw [← sent] at other
    exact .next other (errors_restarted _) (resends_restarted _) rfl
  | reset reaction => exact absurd reaction (regular.steady.reaction_ne_resetDevice judges)

/-- What the counters of an exchange say of its rounds so far. -/
structure IsCounted (past : List (Round Exchange)) (y : Exchange) : Prop where
  regular : y.IsRegular
  errors : y.transfer.errors = (Round.lastTenure y.reference past).countP Round.isRefused
  resends : y.transfer.resends = (Round.lastTenure y.reference past).countP Round.isDemand
  few : y.transfer.resends ≤ resendLimit
  -- The block was sent once without being demanded, or is about to be
  sends : (Round.lastTenure y.reference past).countP Round.isSend + y.interjection.isNone.toNat =
    y.transfer.resends + 1

theorem isCounted_start (purpose : Purpose) (s : Sequence) (payload buffer : Bytes) :
    IsCounted [] (start purpose s (.into payload buffer)) where
  regular := isRegular_start purpose s payload buffer
  errors := errors_begun ..
  resends := resends_begun ..
  few := Nat.le_trans (Nat.le_of_eq (resends_begun ..)) (Nat.zero_le _)
  sends := congrArg (· + 1) (resends_begun purpose (.into payload buffer)).symm

theorem IsCounted.leads (counted : IsCounted past x) (judges : x.Judges r)
    (leads : x.Leads r.verdict y) : IsCounted (past ++ [r]) y := by
  have regular := counted.regular.leads judges leads
  cases turns_of_leads counted.regular judges leads with
  | stays same errors resends few quiet =>
    have kept : Round.lastTenure y.reference (past ++ [r]) =
        Round.lastTenure x.reference past ++ [r] := by
      rw [same]
      exact Round.lastTenure_of_eq (congrArg Exchange.reference judges.before) past
    have send : r.isSend = x.interjection.isNone := by rw [Round.isSend, judges.before]
    refine ⟨regular, ?_, ?_, ?_, ?_⟩
    · rw [kept, countP_concat, ← counted.errors, errors, judges.errors counted.regular.steady]
    · rw [kept, countP_concat, ← counted.resends, resends]
    · have before := counted.few
      cases demand : r.isDemand with
      | false => simpa [resends, demand] using before
      | true => simpa [resends, demand] using Nat.succ_le_of_lt (few demand)
    · rw [kept, countP_concat, send, counted.sends, resends, quiet]
      omega
  | next other errors resends quiet =>
    have none : Round.lastTenure y.reference (past ++ [r]) = [] := by
      refine Round.lastTenure_of_ne (fun same => other ?_) past
      rw [← same, judges.before]
    exact ⟨regular, by simp [none, errors], by simp [none, resends], by simp [resends],
      by simp [none, resends, quiet]⟩

/-! ## The end of a tenure -/

theorem IsSteady.errors_lt (steady : x.IsSteady) (sent : x.reference.pcb ≠ .request .resync) :
    x.transfer.errors < resyncLimit := by
  rwa [IsSteady, if_neg sent] at steady

/-- No rule has the request for a new start as its next reference. Only refused frames lead to it. -/
theorem Judges.resync_of_proceed (judges : x.Judges r) {next : Block}
    (reaction : r.verdict.reaction = .proceed next) (now : next.pcb = .request .resync) :
    resyncLimit ≤ r.verdict.transfer.errors := by
  have judged := judges.judged
  generalize r.verdict = v at judged reaction
  cases judged with
  | accepted _ rule =>
    subst reaction
    cases rule <;> cases now
  | refused _ recovers =>
    subst reaction
    cases recovers with
    | resync many => exact many
    | rule _ _ rule => cases rule

/-- A new start is asked for if one of the counters has reached its limit, and for no other reason. -/
theorem IsCounted.resync_iff (counted : IsCounted past x) (judges : x.Judges r)
    (leads : x.Leads r.verdict y) (sent : x.reference.pcb ≠ .request .resync) :
    y.reference.pcb = .request .resync ↔
      x.transfer.errors + r.isRefused.toNat = resyncLimit ∨
        x.transfer.resends + r.isDemand.toNat = resendLimit + 1 := by
  have errors := counted.regular.steady.errors_lt sent
  have resends := counted.few
  constructor
  · intro now
    cases leads with
    | again => exact absurd now sent
    | interject => exact absurd now sent
    | resync reaction many =>
      rw [judges.resends] at many
      rw [Round.isDemand_iff.mpr reaction]
      exact .inr (congrArg (· + 1) (Nat.le_antisymm resends many))
    | proceed reaction =>
      have many := judges.resync_of_proceed reaction now
      rw [judges.errors counted.regular.steady] at many
      have := Bool.toNat_le r.isRefused
      exact .inl (by omega)
    | restart => exact absurd now (reference_restarted_ne_resync _)
    | reset => exact absurd now (reference_restarted_ne_resync _)
  · rintro (third | fourth)
    · have refused : r.refusal? ≠ none := by
        intro accepted
        simp [Round.isRefused, accepted] at third
        omega
      cases counted.regular.persists_of_refused judges refused leads with
      | counts _ _ counts few =>
        have := Bool.toNat_le r.isRefused
        omega
      | repeats again => exact absurd again sent
      | asks _ _ reference => rw [reference]; rfl
    · have demand : r.verdict.reaction = .retransmit := by
        cases demand : r.isDemand with
        | true => exact Round.isDemand_iff.mp demand
        | false =>
          rw [demand, Bool.toNat_false] at fourth
          omega
      cases leads with
      | again _ few =>
        rw [judges.resends] at few
        have := Bool.toNat_le r.isDemand
        omega
      | resync => rfl
      | proceed reaction => cases demand.symm.trans reaction
      | interject reaction => cases demand.symm.trans reaction
      | restart reaction => cases demand.symm.trans reaction
      | reset reaction => cases demand.symm.trans reaction

/-- A round that ends an exchange other than for the want of a new start was not refused and did not
    demand anything. -/
theorem IsCounted.of_ends (counted : IsCounted past x) (judges : x.Judges r) {ending : Ending}
    (ends : x.Ends r.verdict ending y) (sent : x.reference.pcb ≠ .request .resync) :
    r.isRefused = false ∧ r.isDemand = false := by
  constructor
  · rw [Round.isRefused, Option.isSome_eq_false_iff, Option.isNone_iff_eq_none]
    by_contra refused
    exact sent (counted.regular.unanswered_of_refused judges refused ends).2.1
  · refine Round.isDemand_of_ne ?_
    cases ends with
    | unanswered _ _ resync => exact absurd resync sent
    | completed reaction => simp [reaction]
    | aborted reaction => simp [reaction]
    | gaveUp reaction => simp [reaction]
    | notReset reaction => simp [reaction]

/-- What the counters say of a tenure that is still going on. -/
theorem IsCounted.of_held {earlier front : List (Round Exchange)}
    (counted : IsCounted (earlier ++ front) y)
    (begins : ∀ r ∈ earlier.getLast?, r.before.reference ≠ y.reference)
    (held : ∀ r ∈ front, r.before.reference = y.reference) :
    front.countP Round.isRefused = y.transfer.errors ∧ front.countP Round.isDemand = y.transfer.resends ∧
      front.countP Round.isSend + y.interjection.isNone.toNat = y.transfer.resends + 1 := by
  obtain ⟨-, errors, resends, -, sends⟩ := counted
  rw [Round.lastTenure_append begins held] at errors resends sends
  exact ⟨errors.symm, resends.symm, sends⟩

/-! ## Runs -/

/-- The last round of a tenure, and what it led to. -/
theorem exists_turn (purpose : Purpose) (s : Sequence) (payload buffer : Bytes) (o : Options)
    (card : ScriptedCard) {past rest : List (Round Exchange)} {r : Round Exchange}
    (split : ((start purpose s (.into payload buffer)).run o card).rounds = past ++ r :: rest) :
    ∃ y, IsCounted past y ∧ y.Judges r ∧
      ((rest = [] ∧ ∃ ending z, y.Ends r.verdict ending z) ∨
        ∃ z after rest', y.Leads r.verdict z ∧ rest = after :: rest' ∧ after.before = z) := by
  have kept : IsKept IsCounted := fun _ _ _ _ => IsCounted.leads
  have begun := isCounted_start purpose s payload buffer
  cases rest with
  | nil =>
    obtain ⟨past', y, r', rounds, counted, judges, ends⟩ := kept.run begun begun.regular o card
    obtain ⟨rfl, same⟩ := List.append_inj' (split.symm.trans rounds) rfl
    cases same
    exact ⟨y, counted, judges, .inl ⟨rfl, _, _, ends⟩⟩
  | cons after rest =>
    rw [← List.singleton_append, ← List.append_assoc] at split
    obtain ⟨z, card', reached, record⟩ := Course.exists_reaches_of_split split
    obtain ⟨y, card'', reached, next⟩ := reached.concat
    obtain ⟨judges, leads⟩ := leads_of_round next
    exact ⟨y, kept.of_reaches begun reached, judges,
      .inr ⟨z, after, rest, leads, rfl, by rw [← record]; rfl⟩⟩

/-- What the rounds of a tenure have in common. -/
theorem tenure_of_run (purpose : Purpose) (s : Sequence) (payload buffer : Bytes) (o : Options)
    (card : ScriptedCard) {past tenure rest : List (Round Exchange)} {b : Block}
    (split : ((start purpose s (.into payload buffer)).run o card).rounds = past ++ tenure ++ rest)
    (held : Round.IsTenure Exchange.reference b past tenure rest) :
    1 ≤ tenure.countP Round.isSend ∧ tenure.countP Round.isSend ≤ resendLimit + 1 ∧
      (b.pcb ≠ .request .resync →
        tenure.dropLast.countP Round.isRefused < resyncLimit ∧
        tenure.dropLast.countP Round.isDemand ≤ resendLimit ∧
        (tenure.countP Round.isRefused = resyncLimit ∨ tenure.countP Round.isDemand = resendLimit + 1 ↔
          ∃ r ∈ rest.head?, r.before.reference = .plain (.request .resync) ∧
            r.before.transfer.errors = 0 ∧ r.before.transfer.resends = 0)) := by
  obtain ⟨nonempty, same, begins, ends⟩ := held
  obtain rfl | ⟨front, r, rfl⟩ := List.eq_nil_or_concat tenure
  · exact absurd rfl nonempty
  rw [List.concat_eq_append] at split same ⊢
  rw [← List.append_assoc, List.append_assoc, List.singleton_append] at split
  obtain ⟨y, counted, judges, turn⟩ := exists_turn purpose s payload buffer o card split
  have reference : y.reference = b := by
    rw [← judges.before]
    exact same r (by simp)
  subst reference
  obtain ⟨refused, demands, sends⟩ := counted.of_held begins fun r member =>
    same r (List.mem_append_left _ member)
  have few := counted.few
  have send : r.isSend = y.interjection.isNone := by rw [Round.isSend, judges.before]
  rw [← send] at sends
  rw [countP_concat, countP_concat, countP_concat, sends, refused, demands, List.dropLast_concat]
  refine ⟨Nat.le_add_left 1 _, Nat.succ_le_succ few, fun sent => ⟨?_, ?_, ?_⟩⟩
  · rw [refused]
    exact counted.regular.steady.errors_lt sent
  · rw [demands]
    exact few
  rcases turn with ⟨rfl, ending, z, ended⟩ | ⟨z, after, rest, leads, rfl, rfl⟩
  · obtain ⟨accepted, content⟩ := counted.of_ends judges ended sent
    have := counted.regular.steady.errors_lt sent
    simp [accepted, content]
    omega
  · rw [← counted.resync_iff judges leads sent]
    constructor
    · intro now
      obtain ⟨-, ⟨reference, resends⟩ | ⟨same, -⟩⟩ := leads.resync_cases judges now
      · cases turns_of_leads counted.regular judges leads with
        | stays same => exact absurd same (ends after rfl)
        | next _ errors => exact ⟨after, rfl, reference, errors, resends⟩
      · exact absurd same (ends after rfl)
    · rintro ⟨_, ⟨⟩, reference, -⟩
      rw [reference]
      rfl

end Exchange

/-! ## Exchanges of a host -/

/-- While a block is the reference, it is sent once to four times, and the same bytes are sent each time.
    If it is not the request for a new start, two refused frames and three demands to send it again leave
    it in place. The third refused frame and the fourth demand, and nothing else, make the request for a
    new start the next reference, with both counters at zero.

    A round sends what a card hears, and receives what its next reply is read as (`Host.played_runFor`). -/
theorem Host.sends_of_tenure (purpose : Purpose) (s : Sequence) (payload buffer : Bytes) (o : Options)
    (card : ScriptedCard) {past tenure rest : List (Round Host)} {b : Block}
    (split : ((start purpose s (.into payload buffer)).run o card).rounds = past ++ tenure ++ rest)
    (held : Round.IsTenure (fun h => h.buffers.reference.block) b past tenure rest) :
    let sends := tenure.filter fun r => !r.before.interjecting
    let refused (r : Round Host) := (r.map view).refusal?.isSome
    let demanded (r : Round Host) := r.verdict.reaction == .retransmit
    1 ≤ sends.length ∧ sends.length ≤ 4 ∧
      (∀ r ∈ sends, (o.outbound r.before.outgoing).bytes = o.wire b) ∧
      (b.pcb ≠ .request .resync →
        tenure.dropLast.countP refused ≤ 2 ∧ tenure.dropLast.countP demanded ≤ 3 ∧
        (tenure.countP refused = 3 ∨ tenure.countP demanded = 4 ↔
          ∃ r ∈ rest.head?, r.before.buffers.reference.block = .plain (.request .resync) ∧
            r.before.transfer.errors = 0 ∧ r.before.transfer.resends = 0)) := by
  intro sends refused demanded
  have viewed := rounds_run_start purpose s (.into payload buffer) o card
  rw [split, List.map_append, List.map_append] at viewed
  obtain ⟨once, few, limits⟩ :=
    Exchange.tenure_of_run purpose s payload buffer o card viewed (held.map view)
  have sent : (tenure.map (Round.map view)).countP Round.isSend = sends.length := by
    rw [List.countP_map, List.countP_eq_length_filter]
    congr 2
    funext r
    change (if r.before.interjecting then _ else _ : Option Block).isNone = _
    cases r.before.interjecting <;> rfl
  rw [sent] at once few
  refine ⟨once, few, fun r member => ?_, fun other => ?_⟩
  · obtain ⟨member, quiet⟩ := List.mem_filter.mp member
    have ready : r.before.IsReady := isReady_of_mem_rounds (isReady_start ..)
      (split ▸ List.mem_append_left _ (List.mem_append_right _ member))
    refine bytes_outbound_of_outgoing ready ?_
    rw [← block_outgoing, ← held.held r member, outgoing]
    simp only [Bool.not_eq_true'] at quiet
    rw [quiet]
    rfl
  · obtain ⟨refusals, demands, next⟩ := limits other
    rw [← List.map_dropLast, List.countP_map] at refusals demands
    rw [List.countP_map, List.countP_map, List.head?_map] at next
    refine ⟨Nat.le_of_lt_succ refusals, demands, next.trans ⟨?_, ?_⟩⟩
    · rintro ⟨_, member, found⟩
      obtain ⟨r, first, rfl⟩ := Option.map_eq_some_iff.mp member
      exact ⟨r, first, found⟩
    · rintro ⟨r, first, found⟩
      exact ⟨_, Option.map_eq_some_iff.mpr ⟨r, first, rfl⟩, found⟩

/-- A card that falls silent in its response. The acknowledgement of the first part is sent three times,
    and then a new start is asked for. -/
theorem Host.sends_of_tenure_restarting :
    let rounds := ((start .transceive .fresh (.into [7] [0, 0])).run {} ScriptedCard.restarting).rounds
    let tenure := (rounds.drop 1).take 3
    let sends := tenure.filter fun r => !r.before.interjecting
    let refused (r : Round Host) := (r.map view).refusal?.isSome
    let demanded (r : Round Host) := r.verdict.reaction == .retransmit
    rounds = rounds.take 1 ++ tenure ++ rounds.drop 4 ∧
      Round.IsTenure (fun h => h.buffers.reference.block) (.plain (.ack true)) (rounds.take 1) tenure
        (rounds.drop 4) ∧ sends.length = 3 ∧ tenure.countP refused = 3 ∧
      1 ≤ sends.length ∧ sends.length ≤ 4 ∧
      (∀ r ∈ sends, (Options.outbound {} r.before.outgoing).bytes = [0x5A, 0x90, 0, 0xCA]) ∧
      (Pcb.ack true ≠ .request .resync →
        tenure.dropLast.countP refused ≤ 2 ∧ tenure.dropLast.countP demanded ≤ 3 ∧
        (tenure.countP refused = 3 ∨ tenure.countP demanded = 4 ↔
          ∃ r ∈ (rounds.drop 4).head?, r.before.buffers.reference.block = .plain (.request .resync) ∧
            r.before.transfer.errors = 0 ∧ r.before.transfer.resends = 0)) :=
  let rounds := ((start .transceive .fresh (.into [7] [0, 0])).run {} ScriptedCard.restarting).rounds
  have split : rounds = rounds.take 1 ++ (rounds.drop 1).take 3 ++ rounds.drop 4 := by decide +kernel
  have held : Round.IsTenure (fun h => h.buffers.reference.block) (.plain (.ack true)) (rounds.take 1)
      ((rounds.drop 1).take 3) (rounds.drop 4) :=
    ⟨by decide +kernel, by decide +kernel, by decide +kernel, by decide +kernel⟩
  ⟨split, held, by decide +kernel, by decide +kernel,
    Host.sends_of_tenure .transceive .fresh [7] [0, 0] {} ScriptedCard.restarting split held⟩

end CardLink
