import CardLink.Proofs.Refinement
import CardLink.Proofs.Stretches

/-!
# Transmission

The information blocks that became the reference since an exchange was last begun are the payload in
pieces: `payload_of_runFor` says that at every point of every exchange they carry exactly what has been
filled of the payload, each as much as the card takes, with alternating bits, and each but the first
because the card has asked for it. A block that is sent again is not filled again, so it is counted
once. The exchange is completed only after the whole payload was filled.

The invariant behind this, `Sending`, ties the reference and the filled part of the payload to the
blocks that were filled so far.
-/

namespace CardLink

/-- An information block that became the reference. -/
structure Fill where
  block : Block
  -- The largest information field that the card took when the block was filled
  ifs : Ifs
  -- The frame that the block was filled in response to, if it is not the first one
  cause : Option Frame

namespace Fill

def content (fills : List Fill) : Bytes := fills.flatMap fun fill => fill.block.inf

theorem content_append (fills : List Fill) (fill : Fill) :
    content (fills ++ [fill]) = content fills ++ fill.block.inf := by
  simp [content]

/-- A block continues the blocks before it. -/
structure Continues (payload : Bytes) (first : Bool) (before : List Fill) (fill : Fill) : Prop where
  -- It carries as much as the card takes of what is left
  size : fill.block.inf.length = min fill.ifs.toNat (payload.length - (content before).length)
  -- Its bit follows the one before, and it says whether something is left after it
  pcb : fill.block.pcb = .info (Sequence.bitAt first before.length)
    (decide ((content (before ++ [fill])).length < payload.length))
  -- The first block is as large as the largest one
  opening : before = [] → fill.ifs = .largest
  -- Any other was asked for by an empty block that reports no error and expects its bit
  cause : ∀ earlier previous, before = earlier ++ [previous] → ∃ f seq, fill.cause = some f ∧
    f.isAbsent = false ∧ f.isSound = true ∧ f.len = 0 ∧
    previous.block.pcb = .info seq true ∧ f.pcb = .ack (!seq)

/-- Every one of some blocks continues those before it. -/
def AllContinue (payload : Bytes) (first : Bool) (fills : List Fill) : Prop :=
  ∀ before fill after, fills = before ++ fill :: after → fill.Continues payload first before

theorem AllContinue.nil {payload : Bytes} {first : Bool} : AllContinue payload first [] := by
  intro before fill after split
  simp at split

theorem AllContinue.append {payload : Bytes} {first : Bool} {fills : List Fill} {fill : Fill}
    (all : AllContinue payload first fills) (continues : fill.Continues payload first fills) :
    AllContinue payload first (fills ++ [fill]) := by
  intro before fill' after split
  rcases split_concat split with ⟨rfl, rfl, -⟩ | ⟨rest, earlier, -⟩
  · exact continues
  · exact all before fill' rest earlier

theorem Continues.inf_ne_nil {payload : Bytes} {first seq : Bool} {before : List Fill} {fill : Fill}
    (continues : Continues payload first before fill) (more : fill.block.pcb = .info seq true) :
    fill.block.inf ≠ [] := by
  intro empty
  have positive : 0 < fill.ifs.toNat := fill.ifs.pos
  have size := continues.size
  have pcb := continues.pcb
  rw [more, Pcb.info.injEq] at pcb
  have left := of_decide_eq_true pcb.2.symm
  simp only [content, List.flatMap_append, List.flatMap_cons, List.flatMap_nil, empty,
    List.append_nil] at left
  rw [empty] at size
  simp only [content, List.length_nil] at size
  omega

end Fill

namespace Round

/-- The block that was filled in a round. -/
def fill? (r : Round Exchange) : Option Fill :=
  match r.verdict.reaction with
  | .proceed next => if next.pcb.isInfo then some ⟨next, r.before.transfer.ifs, some r.received⟩ else none
  | _ => none

/-- The exchange as it was when it was last begun, if some rounds led to `last`. -/
def begun (rounds : List (Round Exchange)) (last : Exchange) : Exchange :=
  ((sinceRestart rounds).head?.map before).getD last

/-- The blocks that became the reference since the exchange was last begun, if some rounds led to
    `last`. It was begun with the first of them. -/
def fills (rounds : List (Round Exchange)) (last : Exchange) : List Fill :=
  ⟨(begun rounds last).reference, (begun rounds last).transfer.ifs, none⟩ ::
    (sinceRestart rounds).filterMap fill?

variable {r : Round Exchange} {rounds : List (Round Exchange)} {x y : Exchange}

theorem fill?_eq_none
    (plain : ∀ next, r.verdict.reaction = .proceed next → next.pcb.isInfo = false) :
    r.fill? = none := by
  unfold fill?
  cases reaction : r.verdict.reaction with
  | proceed next => simp [plain next reaction]
  | _ => rfl

theorem begun_of_not (goesOn : r.isRestart = false) (before : r.before = x) :
    begun (rounds ++ [r]) y = begun rounds x := by
  rw [begun, begun, sinceRestart_of_not goesOn]
  cases sinceRestart rounds with
  | nil => exact before
  | cons first rest => rfl

theorem fills_of_not (goesOn : r.isRestart = false) (before : r.before = x) :
    fills (rounds ++ [r]) y = fills rounds x ++ r.fill?.toList := by
  rw [fills, fills, begun_of_not goesOn before, sinceRestart_of_not goesOn, List.filterMap_append]
  cases fill : r.fill? with
  | none => simp [fill]
  | some fill' => simp [fill]

theorem fills_of_nothing (goesOn : r.isRestart = false) (before : r.before = x)
    (nothing : r.fill? = none) : fills (rounds ++ [r]) y = fills rounds x := by
  rw [fills_of_not goesOn before, nothing]
  exact List.append_nil _

end Round

namespace Exchange

variable {σ : Type} [Backend σ] {o : Options} {x y : Exchange} {r : Round Exchange} {bus bus' : σ}

/-- What a round does to the payload. -/
inductive Sends (x : Exchange) (r : Round Exchange) : Prop where
  -- The next block is filled
  | next {seq} (fill : r.fill? = some ⟨x.transfer.nextBlock !seq, x.transfer.ifs, some r.received⟩)
      (passed : x.sequence.fault? r.received = none)
      (sent : x.reference.pcb = .info seq true) (ack : r.received.pcb = .ack !seq)
      (filled : r.verdict.transfer.filled = x.transfer.filled + x.transfer.nextInf.length)
      (proceeds : r.verdict.reaction = .proceed (x.transfer.nextBlock !seq))
  -- No block is filled
  | nothing (fill : r.fill? = none) (filled : r.verdict.transfer.filled = x.transfer.filled)

theorem sends_of_judges (judges : x.Judges r) : x.Sends r := by
  have judged := judges.judged
  generalize verdict : r.verdict = v at judged
  cases judged with
  | @accepted reaction t' passed rule =>
    have filled : r.verdict.transfer.filled = t'.filled := by rw [verdict]
    have proceeds : r.verdict.reaction = reaction := by rw [verdict]
    cases rule with
    | next sent ack =>
      refine .next ?_ passed sent ack filled proceeds
      simp only [Round.fill?, proceeds, judges.before]
      rfl
    | last =>
      exact .nothing (Round.fill?_eq_none (by simp [proceeds])) (filled.trans (Transfer.terms_taking ..).1)
    | part =>
      exact .nothing (Round.fill?_eq_none (by simp [proceeds, Block.plain, Pcb.isInfo]))
        (filled.trans (Transfer.terms_taking ..).1)
    | yield =>
      exact .nothing (Round.fill?_eq_none (by simp [proceeds, Block.plain, Pcb.isInfo])) filled
    | _ => exact .nothing (Round.fill?_eq_none (by simp [proceeds])) filled
  | @refused _ reaction t' _ recovers =>
    have filled : r.verdict.transfer.filled = t'.filled := by rw [verdict]
    have proceeds : r.verdict.reaction = reaction := by rw [verdict]
    cases recovers with
    | rule _ _ rule =>
      cases rule with
      | _ => exact .nothing (Round.fill?_eq_none (by simp [proceeds])) filled
    | resync =>
      exact .nothing (Round.fill?_eq_none (by simp [proceeds, Block.plain, Pcb.isInfo])) filled
    | _ => exact .nothing (Round.fill?_eq_none (by simp [proceeds])) filled

/-- If no block was filled, the reference stays, or becomes one that carries nothing of the payload. An
    acknowledgement becomes the reference only after a block with which the payload ends. -/
theorem reference_of_leads (steady : x.IsSteady) (judges : x.Judges r) (leads : x.Leads r.verdict y)
    (goesOn : r.isRestart = false) (nothing : r.fill? = none) : y.reference = x.reference ∨
      y.reference.pcb.isInfo = false ∧ ∀ c, y.reference.pcb = .ack c → ∃ d, x.reference.pcb.AwaitsInfo d := by
  cases leads with
  | again => exact .inl rfl
  | interject => exact .inl rfl
  | resync => exact .inr ⟨rfl, nofun⟩
  | restart reaction => rw [Round.isRestart_iff.mpr reaction] at goesOn; cases goesOn
  | reset reaction => exact absurd reaction (steady.reaction_ne_resetDevice judges)
  | proceed reaction =>
    cases refers_of_proceed judges reaction with
    | ack awaits => exact .inr ⟨rfl, fun _ _ => ⟨_, awaits⟩⟩
    | abort => exact .inr ⟨rfl, nofun⟩
    | resync => exact .inr ⟨rfl, nofun⟩
    | next =>
      simp [Round.fill?, reaction, Transfer.nextBlock, Pcb.isInfo] at nothing

/-! ## The invariant -/

/-- Once the reference carries nothing of the payload, nothing of it is sent any more. -/
def Stopped (rounds : List (Round Exchange)) (x : Exchange) : Prop :=
  ∀ earlier r later, Round.sinceRestart rounds = earlier ++ r :: later →
    r.before.reference.pcb.isInfo = false →
      (∀ r' ∈ r :: later, r'.before.outgoing.pcb.isInfo = false) ∧ x.reference.pcb.isInfo = false

/-- Every information block that was sent is one of those that became the reference. -/
def Known (rounds : List (Round Exchange)) (x : Exchange) : Prop :=
  ∀ r ∈ Round.sinceRestart rounds, r.before.outgoing.pcb.isInfo = true →
    ∃ fill ∈ Round.fills rounds x, fill.block = r.before.outgoing

/-- The blocks so far carry what has been filled so far, and the reference is the last of them until it
    is one that carries nothing of the payload. -/
structure Sending (s : Sequence) (payload : Bytes) (capacity : Nat) (rounds : List (Round Exchange))
    (x : Exchange) : Prop where
  settled : Settled .transceive payload capacity x
  steady : x.IsSteady
  transceived : IsTransceived x.reference.pcb
  continues : Fill.AllContinue payload (!(Round.origin s rounds).host) (Round.fills rounds x)
  content : Fill.content (Round.fills rounds x) = payload.take x.transfer.filled
  filled : x.transfer.filled ≤ payload.length
  current : x.reference.pcb.isInfo = true →
    ∃ earlier fill, Round.fills rounds x = earlier ++ [fill] ∧ fill.block = x.reference
  finished : ∀ c, x.reference.pcb = .ack c → x.transfer.filled = payload.length
  quiet : ∀ b, x.interjection = some b → b.pcb.isInfo = false
  known : Known rounds x
  stopped : Stopped rounds x

variable {s : Sequence} {payload : Bytes} {capacity : Nat} {past : List (Round Exchange)}

theorem continues_nextBlock {t : Transfer} {first : Bool} {before : List Fill} {cause : Option Frame}
    (content : Fill.content before = t.payload.take t.filled) (filled : t.filled ≤ t.payload.length)
    (opening : before = [] → t.ifs = .largest)
    (asked : ∀ earlier previous, before = earlier ++ [previous] → ∃ f seq, cause = some f ∧
      f.isAbsent = false ∧ f.isSound = true ∧ f.len = 0 ∧
      previous.block.pcb = .info seq true ∧ f.pcb = .ack (!seq)) :
    Fill.Continues t.payload first before
      ⟨t.nextBlock (Sequence.bitAt first before.length), t.ifs, cause⟩ where
  size := by
    change t.nextInf.length = _
    rw [content, List.length_take, Nat.min_eq_left filled, t.length_nextInf]
  pcb := by
    rw [t.pcb_nextBlock, Fill.content_append, content]
    change _ = Pcb.info _ (decide ((t.payload.take t.filled ++ t.nextInf).length < _))
    rw [t.take_filled_append_nextInf, List.length_take, Nat.min_eq_left (t.advanced_filled_le filled)]
  opening := opening
  cause := asked

/-- Where an exchange is begun, at first or anew, the first block is the only one. -/
theorem sending_begun (none : Round.sinceRestart past = []) (payload buffer : Bytes)
    (wasReset : Bool) : Sending s payload buffer.length past
      { start .transceive (Round.origin s past) (.into payload buffer) with wasReset } := by
  let t := Transfer.into payload buffer
  have fills : Round.fills past { start .transceive (Round.origin s past) t with wasReset } =
      [⟨t.nextBlock (!(Round.origin s past).host), t.ifs, .none⟩] := by
    rw [Round.fills, Round.begun, none]
    rfl
  have continues : Fill.Continues t.payload (!(Round.origin s past).host) [] 
      ⟨t.nextBlock (!(Round.origin s past).host), t.ifs, .none⟩ :=
    continues_nextBlock rfl (Nat.zero_le _) (fun _ => rfl) (by simp)
  refine ⟨settled_begun .., isSteady_of_zero rfl rfl, .info, ?_, ?_, t.advanced_filled_le (Nat.zero_le _),
    ?_, nofun, nofun, ?_, ?_⟩
  · rw [fills]
    exact Fill.AllContinue.nil.append continues
  · rw [fills]
    change t.nextInf ++ [] = payload.take t.advanced.filled
    rw [List.append_nil]
    exact t.take_filled_append_nextInf
  · intro _
    exact ⟨[], _, fills, rfl⟩
  · intro r member
    rw [none] at member
    cases member
  · intro earlier r later split
    rw [none] at split
    simp at split

/-- What awaits a response is sent only once the whole payload was filled. -/
theorem Sending.filled_of_awaits (sending : Sending s payload capacity past x) {c : Bool}
    (awaits : x.reference.pcb.AwaitsInfo c) : x.transfer.filled = payload.length := by
  generalize pcb : x.reference.pcb = sent at awaits
  cases awaits with
  | ack => exact sending.finished _ pcb
  | last =>
    -- The reference is the last block so far, and says that nothing is left after it.
    obtain ⟨earlier, fill, fills, block⟩ := sending.current (by rw [pcb]; rfl)
    have continues := sending.continues earlier fill [] fills
    have last := continues.pcb
    rw [block, pcb, Pcb.info.injEq, ← fills, sending.content, List.length_take,
      Nat.min_eq_left sending.filled] at last
    have enough := of_decide_eq_false last.2.symm
    have within := sending.filled
    omega

theorem Sending.known_append (sending : Sending s payload capacity past x) (before : r.before = x)
    (goesOn : r.isRestart = false) : Known (past ++ [r]) y := by
  intro sent member info
  rw [Round.fills_of_not goesOn before]
  rw [Round.sinceRestart_of_not goesOn] at member
  rcases List.mem_append.mp member with earlier | now
  · obtain ⟨fill, filled, block⟩ := sending.known sent earlier info
    exact ⟨fill, List.mem_append_left _ filled, block⟩
  -- What is sent now is the reference, which was the last block to be filled.
  · rw [List.mem_singleton.mp now, before] at info ⊢
    have reference := outgoing_of_info sending.quiet info
    rw [reference] at info ⊢
    obtain ⟨_, fill, fills, block⟩ := sending.current info
    refine ⟨fill, List.mem_append_left _ ?_, block⟩
    rw [fills]
    exact List.mem_append_right _ (List.mem_singleton.mpr rfl)

/-- Once the reference carries nothing of the payload, it never does again until the exchange is begun
    anew. -/
theorem Sending.stopped_append (sending : Sending s payload capacity past x) (before : r.before = x)
    (goesOn : r.isRestart = false)
    (stays : x.reference.pcb.isInfo = false → y.reference.pcb.isInfo = false) :
    Stopped (past ++ [r]) y := by
  have outgoing (other : x.reference.pcb.isInfo = false) : x.outgoing.pcb.isInfo = false := by
    refine Bool.eq_false_iff.mpr fun info => ?_
    rw [outgoing_of_info sending.quiet info, other] at info
    cases info
  intro earlier first later split stopped
  -- The reference was the first to carry nothing either in the new round or in an earlier one.
  rw [Round.sinceRestart_of_not goesOn] at split
  rcases split_concat split with ⟨-, rfl, rfl⟩ | ⟨rest, since, rfl⟩
  · subst before
    refine ⟨fun r' member => ?_, stays stopped⟩
    rw [List.mem_singleton.mp member]
    exact outgoing stopped
  · obtain ⟨silent, reference⟩ := sending.stopped earlier first rest since stopped
    refine ⟨fun r' member => ?_, stays reference⟩
    rw [← List.cons_append] at member
    rcases List.mem_append.mp member with sooner | now
    · exact silent r' sooner
    · rw [List.mem_singleton.mp now, before]
      exact outgoing reference

theorem Sending.continues_next (sending : Sending s payload capacity past x) {seq : Bool}
    (passed : x.sequence.fault? r.received = none) (sent : x.reference.pcb = .info seq true)
    (ack : r.received.pcb = .ack !seq) :
    Fill.Continues payload (!(Round.origin s past).host) (Round.fills past x)
      ⟨x.transfer.nextBlock !seq, x.transfer.ifs, some r.received⟩ := by
  -- The reference is the last block so far, so the bit that the card asks for is the next one.
  obtain ⟨earlier, previous, fills, block⟩ := sending.current (by rw [sent]; rfl)
  have last := (sending.continues earlier previous [] fills).pcb
  rw [block, sent, Pcb.info.injEq] at last
  have bit : (!seq) = Sequence.bitAt (!(Round.origin s past).host) (Round.fills past x).length := by
    rw [fills, List.length_append, last.1]
    rfl
  obtain ⟨present, sound, wellFormed⟩ := Sequence.fault?_eq_none_iff.mp passed
  have empty : r.received.len = 0 := by simpa [Sequence.isWellFormed, ack] using wellFormed
  have content := sending.content
  have filled := sending.filled
  rw [← sending.settled.payload] at content filled ⊢
  rw [bit]
  refine continues_nextBlock content filled (fun none => ?_) ?_
  · rw [none] at fills
    simp at fills
  · intro earlier' previous' split
    rw [fills] at split
    obtain ⟨-, same⟩ := List.append_inj' split rfl
    cases same
    exact ⟨r.received, seq, rfl, present, sound, empty, by rw [block, sent], ack⟩

theorem Sending.next (sending : Sending s payload capacity past x) (judges : x.Judges r)
    (leads : x.Leads r.verdict y) (goesOn : r.isRestart = false)
    (carries : x.Carries r.verdict y) {seq : Bool}
    (fill : r.fill? = some ⟨x.transfer.nextBlock !seq, x.transfer.ifs, some r.received⟩)
    (continues : Fill.Continues payload (!(Round.origin s past).host) (Round.fills past x)
      ⟨x.transfer.nextBlock !seq, x.transfer.ifs, some r.received⟩)
    (filled : r.verdict.transfer.filled = x.transfer.advanced.filled)
    (reference : y.reference = x.transfer.nextBlock !seq)
    (sent : x.reference.pcb.isInfo = true) : Sending s payload capacity (past ++ [r]) y := by
  have fills : Round.fills (past ++ [r]) y = Round.fills past x ++
      [⟨x.transfer.nextBlock !seq, x.transfer.ifs, some r.received⟩] := by
    rw [Round.fills_of_not goesOn judges.before, fill]
    rfl
  have now : y.transfer.filled = x.transfer.advanced.filled := carries.filled.trans filled
  have payload := sending.settled.payload
  refine ⟨sending.settled.leads judges leads, sending.steady.leads judges leads,
    isTransceived_of_leads judges leads sending.settled.purpose sending.transceived, ?_, ?_, ?_, ?_, ?_,
    interjection_of_leads judges leads, sending.known_append judges.before goesOn, ?_⟩
  · rw [fills, Round.origin_of_not _ _ goesOn]
    exact sending.continues.append continues
  · rw [fills, Fill.content_append, sending.content, now, ← payload]
    exact x.transfer.take_filled_append_nextInf
  · rw [now, ← payload]
    exact x.transfer.advanced_filled_le (by rw [payload]; exact sending.filled)
  · intro _
    exact ⟨_, _, fills, reference.symm⟩
  · intro c ack
    rw [reference] at ack
    cases ack
  · exact sending.stopped_append judges.before goesOn fun other => by rw [sent] at other; cases other

theorem Sending.nothing (sending : Sending s payload capacity past x) (judges : x.Judges r)
    (leads : x.Leads r.verdict y) (goesOn : r.isRestart = false)
    (carries : x.Carries r.verdict y) (fill : r.fill? = none)
    (filled : r.verdict.transfer.filled = x.transfer.filled) :
    Sending s payload capacity (past ++ [r]) y := by
  have fills : Round.fills (past ++ [r]) y = Round.fills past x :=
    Round.fills_of_nothing goesOn judges.before fill
  have now : y.transfer.filled = x.transfer.filled := carries.filled.trans filled
  have reference := reference_of_leads sending.steady judges leads goesOn fill
  refine ⟨sending.settled.leads judges leads, sending.steady.leads judges leads,
    isTransceived_of_leads judges leads sending.settled.purpose sending.transceived, ?_, ?_, ?_, ?_, ?_,
    interjection_of_leads judges leads, sending.known_append judges.before goesOn, ?_⟩
  · rw [fills, Round.origin_of_not _ _ goesOn]
    exact sending.continues
  · rw [fills, now]
    exact sending.content
  · rw [now]
    exact sending.filled
  · intro info
    rcases reference with same | ⟨other, -⟩
    · rw [fills, same]
      exact sending.current (by rw [← same]; exact info)
    · rw [other] at info
      cases info
  · intro c ack
    rw [now]
    rcases reference with same | ⟨-, awaits⟩
    · exact sending.finished c (by rw [← same]; exact ack)
    · obtain ⟨_, awaits⟩ := awaits c ack
      exact sending.filled_of_awaits awaits
  · refine sending.stopped_append judges.before goesOn fun other => ?_
    rcases reference with same | ⟨other, -⟩
    · rw [same]
      exact other
    · exact other

theorem Sending.leads (sending : Sending s payload capacity past x) (judges : x.Judges r)
    (leads : x.Leads r.verdict y) : Sending s payload capacity (past ++ [r]) y := by
  rcases leads.cases sending.steady judges with ⟨restart, rfl⟩ | ⟨goesOn, carries⟩
  -- After a restart the first block is the only one again.
  · have settled := sending.settled.judged judges
    rw [settled.restarted_eq, ← settled.capacity, ← Round.origin_of_restart (s := s) restart]
    exact sending_begun (Round.sinceRestart_of_restart restart) payload _ _
  cases sends_of_judges judges with
  | nothing fill filled => exact sending.nothing judges leads goesOn carries fill filled
  | @next seq fill passed sent ack filled proceeds =>
    have reference : y.reference = x.transfer.nextBlock !seq := by
      cases leads <;> simp_all [referring]
    exact sending.next judges leads goesOn carries fill (sending.continues_next passed sent ack) filled
      reference (by rw [sent]; rfl)

theorem sending_of_reaches {s : Sequence} {payload buffer : Bytes}
    (reached : Reaches (round o) (start .transceive s (.into payload buffer)) bus past y bus') :
    Sending s payload buffer.length past y :=
  IsKept.of_reaches (fun _ _ _ _ => Sending.leads)
    (sending_begun Round.sinceRestart_nil payload buffer false) reached

/-! ## The payload -/

/-- What has been sent of a payload. -/
structure Transmission (s : Sequence) (payload : Bytes) (rounds : List (Round Exchange))
    (last : Exchange) : Prop where
  -- Every block continues those before it, from the complement of the host's bit on
  continues : Fill.AllContinue payload (!(Round.origin s rounds).host) (Round.fills rounds last)
  -- Together they carry what was filled, from the start of the payload on
  content : Fill.content (Round.fills rounds last) = payload.take last.transfer.filled
  filled : last.transfer.filled ≤ payload.length
  known : Known rounds last
  stopped : Stopped rounds last

theorem Sending.transmission (sending : Sending s payload capacity past x) :
    Transmission s payload past x :=
  ⟨sending.continues, sending.content, sending.filled, sending.known, sending.stopped⟩

theorem fill?_of_ends {ending : Ending} (ends : x.Ends r.verdict ending y) : r.fill? = none := by
  apply Round.fill?_eq_none
  cases ends <;> simp_all

theorem Sending.ends (sending : Sending s payload capacity past x) (judges : x.Judges r)
    {ending : Ending} (ends : x.Ends r.verdict ending y) : Transmission s payload (past ++ [r]) y := by
  have goesOn := ends.isRestart
  have none := fill?_of_ends ends
  have fills : Round.fills (past ++ [r]) y = Round.fills past x :=
    Round.fills_of_nothing goesOn judges.before none
  have reference : y.reference = x.reference := by cases ends <;> rfl
  have filled : y.transfer.filled = x.transfer.filled := by
    cases sends_of_judges judges with
    | next fill => rw [none] at fill; cases fill
    | nothing _ filled => cases ends <;> exact filled
  refine ⟨?_, ?_, ?_, sending.known_append judges.before goesOn, ?_⟩
  · rw [fills, Round.origin_of_not _ _ goesOn]
    exact sending.continues
  · rw [fills, filled]
    exact sending.content
  · rw [filled]
    exact sending.filled
  · exact sending.stopped_append judges.before goesOn fun other => by rw [reference]; exact other

/-- An exchange is completed by what answers a block with which the payload ends. -/
theorem awaits_of_complete (judges : x.Judges r) (transceived : IsTransceived x.reference.pcb)
    (complete : r.verdict.reaction = .complete) : ∃ c, x.reference.pcb.AwaitsInfo c := by
  have judged := judges.judged
  generalize r.verdict = v at judged complete
  cases judged with
  | accepted _ rule =>
    subst complete
    cases rule with
    | last awaits => exact ⟨_, awaits⟩
    | agreed sent => rw [sent] at transceived; cases transceived
    | aborted sent => rw [sent] at transceived; cases transceived
  | refused _ recovers =>
    subst complete
    cases recovers with
    | rule _ _ rule => cases rule

theorem transmission_runFor (s : Sequence) (payload buffer : Bytes) (o : Options) (n : Nat) (bus : σ) :
    let course := (start .transceive s (.into payload buffer)).runFor o n bus
    Transmission s payload course.rounds course.last ∧ ∀ response, course.ending = .completed response →
      course.last.transfer.filled = payload.length := by
  intro course
  rcases Course.upTo_cases (round o) n (start .transceive s (.into payload buffer)) bus with
    ⟨reached, unsettled, -⟩ | ⟨past, x, bus', r, rounds, -, reached, last⟩
  · refine ⟨(sending_of_reaches reached).transmission, fun response completed => ?_⟩
    rw [show course.ending = .unsettled from unsettled] at completed
    cases completed
  · obtain ⟨judges, ends⟩ := ends_of_round last
    have sending := sending_of_reaches reached
    refine ⟨?_, fun response completed => ?_⟩
    · rw [show course.rounds = past ++ [r] from rounds]
      exact sending.ends judges ends
    · rw [show (Course.upTo (round o) n _ bus).ending = .completed response from completed] at ends
      obtain ⟨complete, -, ended⟩ := ends.of_completed
      obtain ⟨_, awaits⟩ := awaits_of_complete judges sending.transceived complete
      have filled : r.verdict.transfer.filled = x.transfer.filled := by
        cases sends_of_judges judges with
        | next _ _ _ _ _ proceeds => rw [complete] at proceeds; cases proceeds
        | nothing _ filled => exact filled
      rw [show course.last = x.judged r.verdict from ended]
      exact filled.trans (sending.filled_of_awaits awaits)

end Exchange

/-- At every point of an exchange, what was sent of the payload since the exchange was last begun are
    its pieces from the start on, without a gap and none of them twice. A completed exchange has sent
    all of it. -/
theorem Host.payload_of_runFor {σ : Type} [Backend σ] (o : Options) (s : Sequence)
    (payload buffer : Bytes) (n : Nat) (bus : σ) :
    let course := (Host.start .transceive s (.into payload buffer)).runFor o n bus
    let rounds := course.rounds.map (Round.map Host.view)
    let fills := Round.fills rounds course.last.view
    Exchange.Transmission s payload rounds course.last.view ∧
      (∀ fill ∈ fills, ∀ seq, fill.block.pcb = .info seq true → fill.block.inf ≠ []) ∧
      ∀ response, course.ending = .completed response → Fill.content fills = payload := by
  intro course rounds fills
  have refines := Host.runFor_start .transceive s (.into payload buffer) o n bus
  have transmission := Exchange.transmission_runFor s payload buffer o n bus
  simp only [refines] at transmission
  obtain ⟨transmission, completes⟩ := transmission
  refine ⟨transmission, ?_, ?_⟩
  · intro fill member seq more
    obtain ⟨before, after, split⟩ := List.append_of_mem member
    exact (transmission.continues before fill after split).inf_ne_nil more
  · intro response completed
    have all := completes response completed
    rw [show Fill.content fills = _ from transmission.content, all, List.take_length]

end CardLink
