import Mathlib.Data.List.Forall2
import CardLink.Exchange.Course

/-!
# What holds on every course

`Reaches` says that some rounds lead from one state to another, all of them leading on. It grows by one
round at its end, as the history of an exchange does, so an invariant about the rounds so far and the
state they led to is shown by what one more round does to it.

A course is such a sequence of rounds, and possibly one round more that ends it (`upTo_cases`). Two
kinds of round that do the same, one of them seen through a view of its states, have the same courses
(`upTo_map`). If rounds ignore how two states differ, the courses from the two show the same
(`upTo_alike`), and if they overlook how two buses differ, the courses on the two do (`upTo_rebased`).
-/

namespace CardLink

variable {α β σ : Type} {round : α → σ → Round α × Step α × σ}

/-- These rounds lead from one state to another. -/
inductive Reaches (round : α → σ → Round α × Step α × σ) (x : α) (bus : σ) :
    List (Round α) → α → σ → Prop where
  | refl : Reaches round x bus [] x bus
  | tail {past r y z bus' bus''} (reached : Reaches round x bus past y bus')
      (next : round y bus' = (r, .going z, bus'')) : Reaches round x bus (past ++ [r]) z bus''

namespace Reaches

theorem head {x y z : α} {bus bus' bus'' : σ} {r : Round α} {rounds : List (Round α)}
    (first : round x bus = (r, .going y, bus')) (rest : Reaches round y bus' rounds z bus'') :
    Reaches round x bus (r :: rounds) z bus'' := by
  induction rest with
  | refl => exact .tail .refl first
  | tail _ next ih => exact .tail ih next

/-- What holds before the first round and is preserved by every round that leads on holds wherever
    an exchange gets to. -/
theorem invariant {P : List (Round α) → α → σ → Prop} {x y : α} {bus bus' : σ}
    {rounds : List (Round α)} (reached : Reaches round x bus rounds y bus') (initial : P [] x bus)
    (step : ∀ {past y r z bus bus'}, P past y bus → round y bus = (r, .going z, bus') →
      P (past ++ [r]) z bus') : P rounds y bus' := by
  induction reached with
  | refl => exact initial
  | tail _ next ih => exact step ih next

theorem concat {x y : α} {bus bus' : σ} {past : List (Round α)} {r : Round α}
    (reached : Reaches round x bus (past ++ [r]) y bus') :
    ∃ z bus'', Reaches round x bus past z bus'' ∧ round z bus'' = (r, .going y, bus') := by
  generalize rounds : past ++ [r] = all at reached
  cases reached with
  | refl => simp at rounds
  | tail reached next =>
    obtain ⟨rfl, same⟩ := List.append_inj' rounds rfl
    cases same
    exact ⟨_, _, reached, next⟩

theorem last {x y : α} {bus bus' : σ} {rounds : List (Round α)} {r : Round α}
    (reached : Reaches round x bus rounds y bus') (isLast : rounds.getLast? = some r) :
    ∃ past z bus'', Reaches round x bus past z bus'' ∧ round z bus'' = (r, .going y, bus') := by
  obtain ⟨past, rfl⟩ := List.getLast?_eq_some_iff.mp isLast
  obtain ⟨z, bus'', earlier, next⟩ := reached.concat
  exact ⟨past, z, bus'', earlier, next⟩

end Reaches

namespace Course

@[simp] theorem rounds_preceded (course : Course α σ) (r : Round α) :
    (course.preceded r).rounds = r :: course.rounds := rfl

@[simp] theorem ending_preceded (course : Course α σ) (r : Round α) :
    (course.preceded r).ending = course.ending := rfl

@[simp] theorem last_preceded (course : Course α σ) (r : Round α) :
    (course.preceded r).last = course.last := rfl

@[simp] theorem bus_preceded (course : Course α σ) (r : Round α) :
    (course.preceded r).bus = course.bus := rfl

theorem upTo_going {x y : α} {bus bus' : σ} {r : Round α} (n : Nat)
    (first : round x bus = (r, .going y, bus')) :
    upTo round (n + 1) x bus = (upTo round n y bus').preceded r := by
  simp only [upTo, first]

theorem upTo_ended {x y : α} {bus bus' : σ} {r : Round α} {ending : Ending} (n : Nat)
    (first : round x bus = (r, .ended ending y, bus')) :
    upTo round (n + 1) x bus = ⟨[r], ending, y, bus'⟩ := by
  simp only [upTo, first]

/-- A course that may take a round takes it. -/
theorem exists_rounds_succ (round : α → σ → Round α × Step α × σ) (n : Nat) (x : α) (bus : σ) :
    ∃ rest, (upTo round (n + 1) x bus).rounds = (round x bus).1 :: rest := by
  match first : round x bus with
  | (r, .going y, bus') =>
    rw [upTo_going n first]
    exact ⟨_, rfl⟩
  | (r, .ended ending y, bus') =>
    rw [upTo_ended n first]
    exact ⟨[], rfl⟩

/-- The course is still going on after `n` rounds. -/
def Open (round : α → σ → Round α × Step α × σ) (n : Nat) (x : α) (bus : σ)
    (course : Course α σ) : Prop :=
  Reaches round x bus course.rounds course.last course.bus ∧ course.ending = .unsettled ∧
    course.rounds.length = n

/-- The last round of the course ended it. -/
def Closed (round : α → σ → Round α × Step α × σ) (n : Nat) (x : α) (bus : σ)
    (course : Course α σ) : Prop :=
  ∃ past y bus' r, course.rounds = past ++ [r] ∧ past.length < n ∧
    Reaches round x bus past y bus' ∧ round y bus' = (r, .ended course.ending course.last, course.bus)

/-- A course of at most `n` rounds is either still going on after `n` of them, or it was ended by its
    last round. -/
theorem upTo_cases (round : α → σ → Round α × Step α × σ) (n : Nat) (x : α) (bus : σ) :
    Open round n x bus (upTo round n x bus) ∨ Closed round n x bus (upTo round n x bus) := by
  induction n generalizing x bus with
  | zero => exact .inl ⟨.refl, rfl, rfl⟩
  | succ n ih =>
    match first : round x bus with
    | (r, .going y, bus') =>
      rw [upTo_going n first]
      rcases ih y bus' with ⟨reached, unsettled, length⟩ | ⟨past, z, bus'', last, rounds, fewer, reached, ended⟩
      · exact .inl ⟨reached.head first, unsettled, by simp [length]⟩
      · refine .inr ⟨r :: past, z, bus'', last, ?_, ?_, reached.head first, ended⟩
        · simp [rounds]
        · simpa using fewer
    | (r, .ended ending y, bus') =>
      rw [upTo_ended n first]
      exact .inr ⟨[], x, bus, r, rfl, Nat.succ_pos n, .refl, first⟩

theorem upTo_of_reaches {x y : α} {bus bus' : σ} {rounds : List (Round α)}
    (reached : Reaches round x bus rounds y bus') (n : Nat) :
    upTo round (rounds.length + n) x bus =
      { upTo round n y bus' with rounds := rounds ++ (upTo round n y bus').rounds } := by
  induction reached generalizing n with
  | refl => simp
  -- The last round is taken from the rounds that follow.
  | @tail past r y z bus' bus'' _ next ih =>
    have longer : (past ++ [r]).length + n = past.length + (n + 1) := by
      simp only [List.length_append, List.length_singleton]
      omega
    rw [longer, ih, upTo_going n next]
    simp

theorem rounds_of_closed {n : Nat} {x : α} {bus : σ} {course : Course α σ}
    (closed : Closed round n x bus course) : course.rounds.length ≤ n := by
  obtain ⟨past, _, _, r, rounds, fewer, -⟩ := closed
  rw [rounds, List.length_append]
  exact fewer

theorem length_rounds_le (round : α → σ → Round α × Step α × σ) (n : Nat) (x : α) (bus : σ) :
    (upTo round n x bus).rounds.length ≤ n := by
  rcases upTo_cases round n x bus with ⟨-, -, length⟩ | closed
  · exact Nat.le_of_eq length
  · exact rounds_of_closed closed

/-- The rounds before any round of a course lead to the state in which it was taken. -/
theorem exists_reaches_of_split {n : Nat} {x : α} {bus : σ} {past rest : List (Round α)} {r : Round α}
    (split : (upTo round n x bus).rounds = past ++ r :: rest) :
    ∃ y bus', Reaches round x bus past y bus' ∧ (round y bus').1 = r := by
  induction n generalizing x bus past with
  | zero => simp [upTo] at split
  | succ n ih =>
    match first : round x bus with
    | (r', .going y, bus') =>
      rw [upTo_going n first, rounds_preceded] at split
      cases past with
      | nil =>
        cases split
        exact ⟨x, bus, .refl, congrArg Prod.fst first⟩
      | cons earlier past =>
        obtain ⟨rfl, later⟩ := List.cons.inj split
        obtain ⟨z, bus'', reached, record⟩ := ih later
        exact ⟨z, bus'', reached.head first, record⟩
    | (r', .ended ending y, bus') =>
      rw [upTo_ended n first] at split
      cases past with
      | nil =>
        cases split
        exact ⟨x, bus, .refl, congrArg Prod.fst first⟩
      | cons earlier past => simp at split

/-- Every round of a course was taken in a good state, if good states lead to good ones. -/
theorem exists_of_mem_rounds {good : α → Prop}
    (stays : ∀ {x r y bus bus'}, good x → round x bus = (r, .going y, bus') → good y) {n : Nat} {x : α}
    (holds : good x) {bus : σ} {r : Round α} (member : r ∈ (upTo round n x bus).rounds) :
    ∃ y bus', good y ∧ (round y bus').1 = r := by
  obtain ⟨past, rest, split⟩ := List.append_of_mem member
  obtain ⟨y, bus', reached, record⟩ := exists_reaches_of_split split
  exact ⟨y, bus', reached.invariant (P := fun _ y _ => good y) holds stays, record⟩

/-- If some kind of round always ends a course in the same way, a course with such a round has ended in
    that way. -/
theorem ending_of_mem_rounds (final : Round α → Prop) {ending : Ending}
    (stops : ∀ {x r y bus bus'}, final r → round x bus ≠ (r, .going y, bus'))
    (ends : ∀ {x r e y bus bus'}, final r → round x bus = (r, .ended e y, bus') → e = ending) {n : Nat}
    {x : α} {bus : σ} {r : Round α} (holds : final r) (member : r ∈ (upTo round n x bus).rounds) :
    (upTo round n x bus).ending = ending := by
  induction n generalizing x bus with
  | zero => cases member
  | succ n ih =>
    match first : round x bus with
    | (r', .going y, bus') =>
      rw [upTo_going n first] at member ⊢
      rcases List.mem_cons.mp member with rfl | later
      · exact absurd first (stops holds)
      · exact ih later
    | (r', .ended e y, bus') =>
      rw [upTo_ended n first] at member ⊢
      obtain rfl := List.mem_singleton.mp member
      exact ends holds first

/-- If every round that leads on lowers a measure, a course is ended by one of as many rounds as the
    measure says at its start. -/
theorem closed_of_measure (round : α → σ → Round α × Step α × σ) (good : α → σ → Prop)
    (measure : α → σ → Nat) (positive : ∀ {x bus}, good x bus → 0 < measure x bus)
    (falls : ∀ {x r y bus bus'}, good x bus → round x bus = (r, .going y, bus') →
      good y bus' ∧ measure y bus' < measure x bus) {n : Nat} {x : α} {bus : σ} (holds : good x bus)
    (enough : measure x bus ≤ n) : Closed round (measure x bus) x bus (upTo round n x bus) := by
  induction n generalizing x bus with
  | zero => exact absurd (positive holds) (Nat.not_lt_of_le enough)
  | succ n ih =>
    match first : round x bus with
    | (r, .going y, bus') =>
      obtain ⟨holds', lower⟩ := falls holds first
      obtain ⟨past, z, bus'', last, rounds, fewer, reached, ended⟩ :=
        ih holds' (Nat.le_of_lt_succ (Nat.lt_of_lt_of_le lower enough))
      rw [upTo_going n first]
      refine ⟨r :: past, z, bus'', last, ?_, ?_, reached.head first, ended⟩
      · simp [rounds]
      · exact Nat.lt_of_le_of_lt fewer lower
    | (r, .ended ending y, bus') =>
      rw [upTo_ended n first]
      exact ⟨[], x, bus, r, rfl, positive holds, .refl, first⟩

/-- What no round breaks on a bus is not broken by a course. -/
theorem bus_upTo {P : σ → Prop} (stays : ∀ x {bus}, P bus → P (round x bus).2.2) (n : Nat) (x : α)
    {bus : σ} (holds : P bus) : P (upTo round n x bus).bus := by
  induction n generalizing x bus with
  | zero => exact holds
  | succ n ih =>
    have next := stays x holds
    match first : round x bus with
    | (r, .going y, bus') =>
      rw [first] at next
      rw [upTo_going n first]
      exact ih y next
    | (r, .ended ending y, bus') =>
      rw [first] at next
      rw [upTo_ended n first]
      exact next

/-- What the first round brings about on a bus, and no round breaks, is there at the end. -/
theorem bus_upTo_succ {P : σ → Prop} (stays : ∀ x {bus}, P bus → P (round x bus).2.2) (n : Nat) (x : α)
    {bus : σ} (begins : P (round x bus).2.2) : P (upTo round (n + 1) x bus).bus := by
  match first : round x bus with
  | (r, .going y, bus') =>
    rw [first] at begins
    rw [upTo_going n first]
    exact bus_upTo stays n y begins
  | (r, .ended ending y, bus') =>
    rw [first] at begins
    rw [upTo_ended n first]
    exact begins

/-- If every round adds to a log that the bus keeps, the log of a course is that of its rounds, one after
    another. -/
theorem exists_entries {ε : Type} (round : α → σ → Round α × Step α × σ) (log : σ → List ε)
    (adds : Round α → List ε → Prop) (step : ∀ {x r step bus bus'}, round x bus = (r, step, bus') →
      ∃ entries, log bus' = log bus ++ entries ∧ adds r entries) (n : Nat) (x : α) (bus : σ) :
    ∃ entries : List (List ε), log (upTo round n x bus).bus = log bus ++ entries.flatten ∧
      List.Forall₂ adds (upTo round n x bus).rounds entries := by
  induction n generalizing x bus with
  | zero => exact ⟨[], (List.append_nil _).symm, .nil⟩
  | succ n ih =>
    match first : round x bus with
    | (r, .going y, bus') =>
      obtain ⟨now, logged, fits⟩ := step first
      obtain ⟨later, logged', fits'⟩ := ih y bus'
      rw [upTo_going n first]
      refine ⟨now :: later, ?_, .cons fits fits'⟩
      rw [bus_preceded, logged', logged, List.flatten_cons, List.append_assoc]
    | (r, .ended ending y, bus') =>
      obtain ⟨now, logged, fits⟩ := step first
      rw [upTo_ended n first]
      exact ⟨[now], by rw [List.flatten_singleton, logged], .cons fits .nil⟩

end Course

/-! ## The same course, seen in another way -/

/-- A step in other terms, with the ending told in another way. -/
def Step.translate (finish : Ending → Ending) (view : α → β) : Step α → Step β
  | going x => .going (view x)
  | ended ending x => .ended (finish ending) (view x)

theorem Step.translate_id (view : α → β) (step : Step α) : step.translate id view = step.map view := by
  cases step <;> rfl

namespace Course

/-- A course in other terms, with its records and its ending told in another way. -/
def translate (record : Round α → Round β) (finish : Ending → Ending) (view : α → β)
    (course : Course α σ) : Course β σ where
  rounds := course.rounds.map record
  ending := finish course.ending
  last := view course.last
  bus := course.bus

/-- Rounds on `β` do what rounds on `α` do in other terms, as long as the state is `good`. -/
structure Translates (record : Round α → Round β) (finish : Ending → Ending) (view : α → β)
    (good : α → Prop) (round : α → σ → Round α × Step α × σ)
    (round' : β → σ → Round β × Step β × σ) : Prop where
  unsettled : finish .unsettled = .unsettled
  same : ∀ x bus, good x → round' (view x) bus =
    (record (round x bus).1, (round x bus).2.1.translate finish view, (round x bus).2.2)
  stays : ∀ {x r y bus bus'}, good x → round x bus = (r, .going y, bus') → good y

variable {view : α → β} {good : α → Prop} {round' : β → σ → Round β × Step β × σ}

/-- Rounds in other terms have the courses in other terms. -/
theorem upTo_translate {record : Round α → Round β} {finish : Ending → Ending}
    (translates : Translates record finish view good round round') (n : Nat) {x : α} (holds : good x)
    (bus : σ) : upTo round' n (view x) bus = (upTo round n x bus).translate record finish view := by
  induction n generalizing x bus with
  | zero =>
    simp only [upTo, translate, List.map_nil, translates.unsettled]
  | succ n ih =>
    have same := translates.same x bus holds
    match first : round x bus with
    | (r, .going y, bus') =>
      rw [first] at same
      rw [upTo_going n first, upTo_going n same, ih (translates.stays holds first)]
      rfl
    | (r, .ended ending y, bus') =>
      rw [first] at same
      rw [upTo_ended n first, upTo_ended n same]
      rfl

/-- Rounds on `α` do through `view` what rounds on `β` do, as long as the state is `good`. -/
structure Simulates (view : α → β) (good : α → Prop) (round : α → σ → Round α × Step α × σ)
    (round' : β → σ → Round β × Step β × σ) : Prop where
  same : ∀ x bus, good x → round' (view x) bus =
    ((round x bus).1.map view, (round x bus).2.1.map view, (round x bus).2.2)
  stays : ∀ {x r y bus bus'}, good x → round x bus = (r, .going y, bus') → good y

theorem Simulates.translates (simulates : Simulates view good round round') :
    Translates (Round.map view) id view good round round' where
  unsettled := rfl
  same x bus holds := by rw [Step.translate_id, simulates.same x bus holds]
  stays := simulates.stays

/-- Rounds that do the same have the same courses. -/
theorem upTo_map (simulates : Simulates view good round round') (n : Nat) {x : α} (holds : good x)
    (bus : σ) : upTo round' n (view x) bus = (upTo round n x bus).map view :=
  upTo_translate simulates.translates n holds bus

/-- What is reached by rounds that do the same is the same. -/
theorem reaches_map (simulates : Simulates view good round round') {x y : α} {bus bus' : σ}
    {rounds : List (Round α)} (reached : Reaches round x bus rounds y bus') (holds : good x) :
    Reaches round' (view x) bus (rounds.map (Round.map view)) (view y) bus' ∧ good y := by
  induction reached with
  | refl => exact ⟨.refl, holds⟩
  | @tail past r y z bus' bus'' _ next ih =>
    obtain ⟨reached, holds⟩ := ih
    have same := simulates.same y bus' holds
    rw [next] at same
    rw [List.map_append]
    exact ⟨.tail reached same, simulates.stays holds next⟩

end Course

/-! ## Courses that show the same -/

/-- Both rounds lead on, or both end in the same way, and the states after them are alike. -/
inductive Step.Alike (alike : α → α → Prop) : Step α → Step α → Prop where
  | going {x y} (both : alike x y) : Alike alike (.going x) (.going y)
  | ended {x y} (ending : Ending) (both : alike x y) : Alike alike (.ended ending x) (.ended ending y)

theorem Step.alike_of_map (view : α → β) {alike : β → β → Prop} {step step' : Step α}
    (seen : Alike alike (step.map view) (step'.map view)) :
    Alike (fun x y => alike (view x) (view y)) step step' := by
  cases step with
  | going x =>
    cases step' with
    | going y => cases seen with | going both => exact .going both
    | ended _ y => cases seen
  | ended ending x =>
    cases step' with
    | going y => cases seen
    | ended _ y => cases seen with | ended _ both => exact .ended _ both

namespace Course

variable {γ : Type} {alike : α → α → Prop} {good : α → Prop} {shows : Round α → γ}

/-- Rounds on alike states show the same, do the same to the bus and lead to alike states, as long as
    the states are `good`. -/
structure Ignores (alike : α → α → Prop) (good : α → Prop) (shows : Round α → γ)
    (round : α → σ → Round α × Step α × σ) : Prop where
  shows : ∀ {x y} bus, good x → good y → alike x y →
    shows (round x bus).1 = shows (round y bus).1
  step : ∀ {x y} bus, good x → good y → alike x y →
    Step.Alike alike (round x bus).2.1 (round y bus).2.1 ∧ (round x bus).2.2 = (round y bus).2.2
  stays : ∀ {x r y bus bus'}, good x → round x bus = (r, .going y, bus') → good y

/-- Two courses show the same, and end alike. -/
structure Alike (alike : α → α → Prop) (shows : Round α → γ) (course course' : Course α σ) : Prop where
  rounds : course.rounds.map shows = course'.rounds.map shows
  ending : course.ending = course'.ending
  last : alike course.last course'.last
  bus : course.bus = course'.bus

theorem Alike.preceded {course course' : Course α σ} (both : Alike alike shows course course')
    {r r' : Round α} (same : shows r = shows r') :
    Alike alike shows (course.preceded r) (course'.preceded r') := by
  refine ⟨?_, both.ending, both.last, both.bus⟩
  rw [rounds_preceded, rounds_preceded, List.map_cons, List.map_cons, same, both.rounds]

/-- A first round that shows the same, perhaps on different buses, is followed by courses that do. -/
theorem upTo_alike_of_first (ignores : Ignores alike good shows round) {n : Nat}
    (rest : ∀ {x y : α} (bus : σ), good x → good y → alike x y →
      Alike alike shows (upTo round n x bus) (upTo round n y bus))
    {x y : α} {bus bus' : σ} (goodLeft : good x) (goodRight : good y)
    (same : shows (round x bus).1 = shows (round y bus').1)
    (steps : Step.Alike alike (round x bus).2.1 (round y bus').2.1)
    (buses : (round x bus).2.2 = (round y bus').2.2) :
    Alike alike shows (upTo round (n + 1) x bus) (upTo round (n + 1) y bus') := by
  match left : round x bus, right : round y bus' with
  | (r, step, after), (r', step', after') =>
    rw [left, right] at same steps buses
    change Step.Alike alike step step' at steps
    change after = after' at buses
    subst buses
    -- Either both courses go on or both end.
    cases steps with
    | going next =>
      rw [upTo_going n left, upTo_going n right]
      exact (rest after (ignores.stays goodLeft left) (ignores.stays goodRight right) next).preceded same
    | ended ending next =>
      rw [upTo_ended n left, upTo_ended n right]
      exact ⟨congrArg (fun shown => [shown]) same, rfl, next, rfl⟩

/-- Alike states have courses that show the same. -/
theorem upTo_alike (ignores : Ignores alike good shows round) (n : Nat) {x y : α} (goodLeft : good x)
    (goodRight : good y) (both : alike x y) (bus : σ) :
    Alike alike shows (upTo round n x bus) (upTo round n y bus) := by
  induction n generalizing x y bus with
  | zero => exact ⟨rfl, rfl, both, rfl⟩
  | succ n ih =>
    obtain ⟨steps, buses⟩ := ignores.step bus goodLeft goodRight both
    exact upTo_alike_of_first ignores (fun bus left right both => ih left right both bus) goodLeft
      goodRight (ignores.shows bus goodLeft goodRight both) steps buses

end Course

/-! ## The same course on another bus -/

namespace Course

variable {f : σ → σ} {good : σ → Prop}

/-- The course with something changed on the bus at its end. -/
def rebased (f : σ → σ) (course : Course α σ) : Course α σ := { course with bus := f course.bus }

/-- Rounds take no notice of what `f` changes on a bus, as long as the bus is `good`. -/
structure Overlooks (f : σ → σ) (good : σ → Prop) (round : α → σ → Round α × Step α × σ) : Prop where
  same : ∀ (x : α) {bus}, good bus →
    round x (f bus) = ((round x bus).1, (round x bus).2.1, f (round x bus).2.2)
  stays : ∀ (x : α) {bus}, good bus → good (round x bus).2.2

theorem upTo_rebased (overlooks : Overlooks f good round) (n : Nat) (x : α) {bus : σ} (holds : good bus) :
    upTo round n x (f bus) = (upTo round n x bus).rebased f := by
  induction n generalizing x bus with
  | zero => rfl
  | succ n ih =>
    have same := overlooks.same x holds
    have stays := overlooks.stays x holds
    match first : round x bus with
    | (r, .going y, bus') =>
      rw [first] at same stays
      rw [upTo_going n first, upTo_going n same, ih y stays]
      rfl
    | (r, .ended ending y, bus') =>
      rw [first] at same
      rw [upTo_ended n first, upTo_ended n same]
      rfl

/-- First rounds that lead to the same, but for what is overlooked on the bus, are followed by the same
    rounds. -/
theorem upTo_rebased_of_first (overlooks : Overlooks f good round) (n : Nat) {x y : α} {bus bus' : σ}
    (holds : good (round x bus).2.2) (steps : (round y bus').2.1 = (round x bus).2.1)
    (buses : (round y bus').2.2 = f (round x bus).2.2) :
    upTo round (n + 1) y bus' = { (upTo round (n + 1) x bus).rebased f with
      rounds := (round y bus').1 :: (upTo round (n + 1) x bus).rounds.tail } := by
  have second : round y bus' = ((round y bus').1, (round x bus).2.1, f (round x bus).2.2) := by
    rw [← steps, ← buses]
  match first : round x bus with
  | (r, .going z, after) =>
    rw [first] at holds second
    rw [upTo_going n first, upTo_going n second, upTo_rebased overlooks n z holds]
    rfl
  | (r, .ended ending z, after) =>
    rw [first] at second
    rw [upTo_ended n first, upTo_ended n second]
    rfl

/-- Alike states have courses with the same last state, once a round has been taken after which it does
    not matter how they differed. -/
theorem last_of_settled {alike : α → α → Prop} {good : α → Prop} {γ : Type} {shows : Round α → γ}
    (ignores : Ignores alike good shows round) {settled : Round α → Prop}
    (settles : ∀ {x y : α} (bus : σ), alike x y → settled (round x bus).1 →
      (round y bus).2 = (round x bus).2) {n : Nat} {x y : α} {bus : σ} (goodLeft : good x)
    (goodRight : good y) (both : alike x y)
    (taken : ∃ r ∈ (upTo round n x bus).rounds, settled r) :
    (upTo round n y bus).last = (upTo round n x bus).last := by
  induction n generalizing x y bus with
  | zero =>
    obtain ⟨_, member, -⟩ := taken
    cases member
  | succ n ih =>
    by_cases first : settled (round x bus).1
    · have same := settles bus both first
      have overlooks : Overlooks id (fun _ => True) round :=
        ⟨fun _ _ _ => rfl, fun _ _ _ => trivial⟩
      rw [upTo_rebased_of_first overlooks n trivial (congrArg Prod.fst same) (congrArg Prod.snd same)]
      rfl
    -- The states may still differ after the first round, and the round in question is yet to come.
    · obtain ⟨steps, buses⟩ := ignores.step bus goodLeft goodRight both
      match left : round x bus, right : round y bus with
      | (r, step, after), (r', step', after') =>
        rw [left] at first
        rw [left, right] at steps buses
        change Step.Alike alike step step' at steps
        change after = after' at buses
        subst buses
        cases steps with
        | going next =>
          rw [upTo_going n left] at taken
          rw [upTo_going n left, upTo_going n right]
          refine ih (ignores.stays goodLeft left) (ignores.stays goodRight right) next ?_
          obtain ⟨r, member, holds⟩ := taken
          rcases List.mem_cons.mp member with rfl | later
          · exact absurd holds first
          · exact ⟨r, later, holds⟩
        | ended ending next =>
          obtain ⟨r, member, holds⟩ := taken
          rw [upTo_ended n left] at member
          cases List.mem_singleton.mp member
          exact absurd holds first

end Course

end CardLink
