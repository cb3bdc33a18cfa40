import CardLink.Proofs.Decoding
import CardLink.Proofs.SentBlocks

/-!
# Frames over a link

A host that waits for a frame reads it piece by piece, and takes from LEN how much there is to read. Of
a reply it accepts what decoding accepts of its prefixes: there is at most one, and the frame has its
bytes. Whatever the reply is, it is used up, and the card is left as quiet as it was
(`agrees_of_receive`).

What is sent by a host is read by its peer as the same block, whatever their buffers held before. The
check is accepted if both compute it under the same address, that is if both or neither follow the
convention for addresses of zero, or if the address is zero anyway (`roundTrip_of_send`).
-/

namespace CardLink

theorem Bytes.IsBlock.exists_cons {w : Bytes} (block : w.IsBlock) : ∃ nad pcbByte len rest,
    w = nad :: pcbByte :: len :: rest ∧ len.toNat ≤ maxInf ∧ rest.length = len.toNat + 1 := by
  obtain ⟨long, inRange, length, -⟩ := block
  match w with
  | [] | [_] | [_, _] => simp at long
  | nad :: pcbByte :: len :: rest =>
    exact ⟨nad, pcbByte, len, rest, rfl, inRange, by simpa using length⟩

namespace Frame

variable {card : ScriptedCard} {o : Options} {w p : Bytes} {into f : Frame}

/-! ## Replies that are read -/

/-- A frame for this side is read, whatever follows it. -/
theorem hear_of_fits (o : Options) (into : Frame) (pcbByte : UInt8) {len : UInt8} {rest : Bytes}
    (inRange : len.toNat ≤ maxInf) (length : rest.length = len.toNat + 1) (behind : Bytes) :
    hear o into (o.host :: pcbByte :: len :: (rest ++ behind)) =
      .ok (o.underConvention .receive (into.received o.host pcbByte len rest)) := by
  have notReserved : len ≠ 255 := toNat_le_maxInf_iff.mp inRange
  have enough : len.toNat < (rest ++ behind).length := by
    simp only [List.length_append, length]
    omega
  simp only [hear, read, if_true, if_neg notReserved, if_pos enough, ← length, List.take_left]

/-- What is read are the bytes of a frame. -/
theorem bytes_of_read (plain : o.convention = none) {bytes : Bytes} (reads : read o into bytes = .ok f) :
    f.bytes <+: o.host :: bytes := by
  rcases bytes with _ | ⟨pcbByte, _ | ⟨len, rest⟩⟩
  · cases reads
  · cases reads
  rw [read] at reads
  by_cases reserved : len = 255
  · simp [reserved] at reads
  by_cases enough : len.toNat < rest.length
  · have length : (rest.take (len.toNat + 1)).length = len.toNat + 1 := List.length_take_of_le enough
    have bytes := bytes_received into o.host pcbByte (toNat_le_maxInf_iff.mpr reserved) length
    simp only [if_neg reserved, if_pos enough, Options.underConvention, plain] at reads
    cases reads
    rw [bytes]
    exact ⟨rest.drop (len.toNat + 1), by simp⟩
  · simp [reserved, enough] at reads

theorem bytes_of_hear (plain : o.convention = none) (heard : hear o into w = .ok f) :
    w.head? = some o.host ∧ f.bytes <+: w := by
  rcases w with _ | ⟨address, bytes⟩
  · cases heard
  by_cases mine : address = o.host
  · rw [hear, if_pos mine] at heard
    subst mine
    exact ⟨rfl, bytes_of_read plain heard⟩
  · simp [hear, mine] at heard

/-- A block for this side is read, whatever follows it. -/
theorem hear_of_isBlock (plain : o.convention = none) (into : Frame) (mine : w.head? = some o.host)
    (start : p <+: w) (block : p.IsBlock) : ∃ f, hear o into w = .ok f ∧ f.bytes = p := by
  obtain ⟨nad, pcbByte, len, rest, rfl, inRange, length⟩ := block.exists_cons
  obtain ⟨behind, rfl⟩ := start
  obtain rfl : nad = o.host := Option.some.inj mine
  refine ⟨_, hear_of_fits o into pcbByte inRange length behind, ?_⟩
  simp only [Options.underConvention, plain]
  exact bytes_received into o.host pcbByte inRange length

/-- A reply is accepted if and only if it is for this side and begins with a block. -/
theorem exists_hear_iff (plain : o.convention = none) (into : Frame) :
    (∃ f, hear o into w = .ok f ∧ f.isSound = true) ↔
      w.head? = some o.host ∧ ∃ p : Bytes, p <+: w ∧ p.IsBlock := by
  constructor
  · rintro ⟨f, heard, sound⟩
    obtain ⟨mine, start⟩ := bytes_of_hear plain heard
    exact ⟨mine, f.bytes, start, f.isBlock_bytes_iff.mpr sound⟩
  · rintro ⟨mine, p, start, block⟩
    obtain ⟨f, heard, rfl⟩ := hear_of_isBlock plain into mine start block
    exact ⟨f, heard, f.isBlock_bytes_iff.mp block⟩

theorem len_of_bytes {f g : Frame} (same : f.bytes = g.bytes) : f.len = g.len :=
  Option.some.inj (congrArg (fun bytes => bytes[2]?) same)

section Reception

variable (quiet : card.IsQuiet) {later : List Reply} (next : card.replies = .frame w :: later)
include quiet next

theorem receiveCounted_of_frame (o : Options) (timeout : Duration) (into : Frame) :
    (receiveCounted o timeout into).run card =
      endingOn (card.polled timeout) ((hear o into w).map fun f => (f, f.len.toNat)) := by
  rw [receiveCounted, EStateM.run_bind, receive_of_frame quiet next]
  cases hear o into w <;> rfl

theorem receiveCounted_eq_ok_iff {timeout : Duration} {n : Nat} {bus : ScriptedCard} :
    (receiveCounted o timeout into).run card = .ok (f, n) bus ↔
      hear o into w = .ok f ∧ n = f.len.toNat ∧ bus = card.polled timeout := by
  rw [receiveCounted_of_frame quiet next]
  cases hear o into w with
  | error e => simp [endingOn, Except.map]
  | ok g =>
    simp only [endingOn, Except.map, EStateM.Result.ok.injEq, Prod.mk.injEq, Except.ok.injEq]
    constructor
    · rintro ⟨⟨rfl, rfl⟩, rfl⟩
      exact ⟨rfl, rfl, rfl⟩
    · rintro ⟨rfl, rfl, rfl⟩
      exact ⟨⟨rfl, rfl⟩, rfl⟩

/-- A host accepts what decoding accepts of some prefix of the reply, if it is addressed to it. There is at
    most one such prefix, and it is what the frame shows. -/
theorem agrees_of_receive (plain : o.convention = none) (timeout : Duration) (into : Frame) :
    let result := (receiveCounted o timeout into).run card
    ((∃ f n bus, result = .ok (f, n) bus ∧ f.isSound = true) ↔
        w.head? = some o.host ∧ ∃ p, p <+: w ∧ ∃ g, decode p = .ok g) ∧
      (∀ p p' g g', p <+: w → p' <+: w → decode p = .ok g → decode p' = .ok g' → p = p') ∧
      (∀ f n bus p g, result = .ok (f, n) bus → f.isSound = true → p <+: w → decode p = .ok g →
        n = g.len.toNat ∧ f.bytes = p) ∧
      -- Whatever is read, the reply is used up, and no other is begun
      stateAfter result = card.polled timeout ∧ (card.polled timeout).replies = later ∧
      (card.polled timeout).IsQuiet := by
  intro result
  have ends : result = _ := receiveCounted_of_frame quiet next o timeout into
  refine ⟨?_, ?_, ?_, ?_, ?_, quiet.polled timeout⟩
  · simp only [isBlock_iff]
    rw [← exists_hear_iff plain into]
    constructor
    · rintro ⟨f, n, bus, ends, sound⟩
      exact ⟨f, ((receiveCounted_eq_ok_iff quiet next).mp ends).1, sound⟩
    · rintro ⟨f, heard, sound⟩
      exact ⟨f, _, _, (receiveCounted_eq_ok_iff quiet next).mpr ⟨heard, rfl, rfl⟩, sound⟩
  · intro p p' g g' start start' decoded decoded'
    exact (isBlock_iff.mp ⟨g, decoded⟩).unique (isBlock_iff.mp ⟨g', decoded'⟩) start start'
  · intro f n bus p g ends sound start decoded
    obtain ⟨heard, rfl, -⟩ := (receiveCounted_eq_ok_iff quiet next).mp ends
    obtain rfl := bytes_of_decode decoded
    have same : f.bytes = g.bytes := (f.isBlock_bytes_iff.mpr sound).unique
      (isBlock_iff.mp ⟨g, decoded⟩) (bytes_of_hear plain heard).2 start
    exact ⟨congrArg UInt8.toNat (len_of_bytes same), same⟩
  · rw [ends]
    cases hear o into w <;> rfl
  · simp only [ScriptedCard.polled, next, List.tail_cons]

end Reception

/-- A block that a byte follows which is not part of it. -/
theorem agrees_of_receive_trailed :
    let w : Bytes := [0xA5, 0x40, 1, 3, 0xE7, 9]
    let card := ScriptedCard.ofReplies [.frame w, .silence]
    let o : Options := {}
    card.IsQuiet ∧ o.convention = none ∧ card.replies = [.frame w, .silence] ∧
      ∃ f bus, (receiveCounted o o.bwt absent).run card = .ok (f, 1) bus ∧ f.isSound = true ∧
        f.bytes = w.take 5 ∧ bus.replies = [.silence] := by
  intro w card o
  have quiet : card.IsQuiet := (ScriptedCard.isIdle_ofReplies _).isQuiet
  have plain : o.convention = none := rfl
  have next : card.replies = .frame w :: [.silence] := rfl
  have decoded : decode (w.take 5) = .ok (blank.received 0xA5 0x40 1 [3, 0xE7]) := by decide +kernel
  obtain ⟨accepted, -, shown, after, rest, -⟩ :=
    agrees_of_receive quiet next plain o.bwt absent
  obtain ⟨f, n, bus, ends, sound⟩ := accepted.mpr ⟨rfl, w.take 5, w.take_prefix 5, _, decoded⟩
  obtain ⟨rfl, bytes⟩ := shown f n bus _ _ ends sound (w.take_prefix 5) decoded
  rw [ends] at after
  obtain rfl : bus = card.polled o.bwt := after
  exact ⟨quiet, plain, next, f, _, ends, sound, bytes, rest⟩

/-! ## Round trips -/

/-- A frame is transmitted as a whole, with the address and the check that the options ask for. -/
theorem transmissions_send {σ : Type} [Backend σ] (o : Options) (f : Frame) (t : Traced σ) :
    (stateAfter ((send o f).run t)).transmissions =
      t.transmissions ++ [((o.outbound f).bytes, true)] := by
  have calls : (stateAfter ((send o f).run t)).calls =
      t.calls ++ [.transmit (o.outbound f).bytes true] := by
    simp only [EStateM.run, send, Backend.transmit, Traced.lifting]
    split <;> rfl
  rw [Traced.transmissions, calls, List.filterMap_append]
  rfl

section Received

variable {len : UInt8} {inf : Bytes} (inRange : len.toNat ≤ maxInf) (length : inf.length = len.toNat)
include inRange length

theorem inf_received (base : Frame) (nad pcbByte check : UInt8) :
    (base.received nad pcbByte len (inf ++ [check])).inf = inf := by
  obtain rfl : UInt8.ofNat inf.length = len := by rw [length, UInt8.ofNat_toNat]
  exact inf_showing (by rwa [length]) base nad pcbByte check

/-- A frame whose check was computed under some address is sound if the host looks at it under the same. -/
theorem isSound_received (base : Frame) (nad nad' pcbByte : UInt8) :
    (base.received nad pcbByte len (inf ++ [Bytes.check (nad' :: pcbByte :: len :: inf)])).isSound = true ↔
      nad' = nad := by
  have total : (inf ++ [Bytes.check (nad' :: pcbByte :: len :: inf)]).length = len.toNat + 1 := by
    rw [List.length_append, length, List.length_singleton]
  have content : Bytes.check (nad :: pcbByte :: len ::
      (inf ++ [Bytes.check (nad' :: pcbByte :: len :: inf)])) =
      Bytes.check (nad :: pcbByte :: len :: inf) ^^^ Bytes.check (nad' :: pcbByte :: len :: inf) :=
    Bytes.check_concat (nad :: pcbByte :: len :: inf) _
  rw [isSound_iff, bytes_received base nad pcbByte inRange total, content, UInt8.xor_eq_zero_iff,
    Bytes.check_cons nad, Bytes.check_cons nad', UInt8.xor_left_inj]
  exact ⟨fun sound => sound.2.symm, fun same => ⟨inRange, same.symm⟩⟩

end Received

/-- What one side sends, the other side receives, whatever their buffers held before. The check is accepted
    if both sides compute it under the same address. -/
theorem roundTrip_of_send {σ : Type} [Backend σ] {so ro : Options} (shared : so.node = ro.host)
    {f : Frame} (inRange : f.len.toNat ≤ maxInf) (t t' : Traced σ) (timeout : Duration) (into : Frame) :
    -- A frame that was sent is not changed by sending it again
    so.outbound (so.outbound f) = so.outbound f ∧ ∃ sent,
      (stateAfter ((send so f).run t)).transmissions = t.transmissions ++ [(sent, true)] ∧
      (stateAfter ((send so (so.outbound f)).run t')).transmissions = t'.transmissions ++ [(sent, true)] ∧
      ∀ (card : ScriptedCard) later, card.IsQuiet → card.replies = .frame sent :: later →
        ∃ got, (receiveCounted ro timeout into).run card = .ok (got, f.len.toNat) (card.polled timeout) ∧
          got.pcbByte = f.pcbByte ∧ got.len = f.len ∧ got.inf = f.inf ∧
          (got.isSound = true ↔ so.convention.isSome = ro.convention.isSome ∨ so.node = 0) := by
  have length : f.inf.length = f.len.toNat := by rw [length_inf, infLength_of_le inRange]
  refine ⟨so.outbound_outbound f, (so.outbound f).bytes, transmissions_send so f t, ?_, ?_⟩
  · rw [transmissions_send, so.outbound_outbound]
  intro card later quiet next
  let check := Bytes.check (so.checkedNode :: f.pcbByte :: f.len :: f.inf)
  let got := into.received ro.checkedHost f.pcbByte f.len (f.inf ++ [check])
  have heard : hear ro into (so.outbound f).bytes = .ok got := by
    have total : (f.inf ++ [check]).length = f.len.toNat + 1 := by
      rw [List.length_append, length, List.length_singleton]
    have heard := hear_of_fits ro into f.pcbByte inRange total []
    rw [ro.underConvention_received, List.append_nil, ← shared] at heard
    rw [so.bytes_outbound_eq]
    exact heard
  refine ⟨got, (receiveCounted_eq_ok_iff quiet next).mpr ⟨heard, rfl, rfl⟩, rfl, rfl,
    inf_received inRange length .., ?_⟩
  have sound := isSound_received inRange length into ro.checkedHost so.checkedNode f.pcbByte
  rw [sound, Options.checkedNode, Options.checkedHost, shared]
  cases so.convention <;> cases ro.convention <;> simp [eq_comm]

/-- One side follows the convention and the other does not, so the check is not accepted. -/
theorem roundTrip_of_send_mixed :
    let so : Options := { host := 0x5A, node := 0xA5 }
    let ro : Options := { convention := some .zeroAddressCheck }
    let f := absent.withLen 2
    let t : Traced ScriptedCard := ⟨.ofReplies [], []⟩
    so.node = ro.host ∧ f.len.toNat ≤ maxInf ∧ ∃ sent,
      (stateAfter ((send so f).run t)).transmissions = [(sent, true)] ∧ ∃ got,
        (receiveCounted ro ro.bwt blank).run (.ofReplies [.frame sent]) =
          .ok (got, 2) ((ScriptedCard.ofReplies [.frame sent]).polled ro.bwt) ∧
        got.inf = [0xFF, 0xFF] ∧ got.isSound = false := by
  intro so ro f t
  have shared : so.node = ro.host := rfl
  have inRange : f.len.toNat ≤ maxInf := by decide
  obtain ⟨-, sent, transmitted, -, received⟩ := roundTrip_of_send shared inRange t t ro.bwt blank
  obtain ⟨got, ends, -, -, inf, sound⟩ :=
    received (.ofReplies [.frame sent]) [] (ScriptedCard.isIdle_ofReplies _).isQuiet rfl
  have mixed : ¬ (so.convention.isSome = ro.convention.isSome ∨ so.node = 0) := by decide
  exact ⟨shared, inRange, sent, transmitted, got, ends, inf,
    Bool.eq_false_iff.mpr fun accepted => mixed (sound.mp accepted)⟩

end Frame

end CardLink
