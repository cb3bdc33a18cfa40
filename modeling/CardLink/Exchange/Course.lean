import CardLink.Exchange.Reaction

/-!
# Courses

An exchange goes on in rounds: a block is sent, a frame is awaited and judged, and the verdict leads
to a further round or to the end. A *course* is such a sequence of rounds with a record of each. It
does not matter here what an exchange is made of: its states are of a type `α`, the states of the bus
of a type `σ`, and a round is any function on them.

`Course.upTo` takes a bounded number of rounds.
-/

namespace CardLink

/-- How an exchange ended. -/
inductive Ending where
  -- The card's response, as far as there was room for it
  | completed (response : Bytes)
  | failed (e : Error)
  -- It did not end in the rounds it was given
  | unsettled
deriving DecidableEq

def Ending.error? : Ending → Option Error
  | failed e => some e
  | completed _ | unsettled => none

/-- What a round leads to. -/
inductive Step (α : Type) where
  | going (x : α)
  -- The end, and the exchange as it was then
  | ended (ending : Ending) (x : α)
deriving DecidableEq

def Step.map {α β : Type} (view : α → β) : Step α → Step β
  | going x => .going (view x)
  | ended ending x => .ended ending (view x)

/-- What happened in one round. -/
structure Round (α : Type) where
  -- The exchange before the round
  before : α
  -- The frame that arrived, or the one that stands for none
  received : Frame
  verdict : Verdict
deriving DecidableEq

def Round.map {α β : Type} (view : α → β) (r : Round α) : Round β :=
  { r with before := view r.before }

/-- An exchange and all its rounds. -/
structure Course (α σ : Type) where
  rounds : List (Round α)
  ending : Ending
  -- The exchange after its last round
  last : α
  -- The bus after the last round
  bus : σ

namespace Course

variable {α β σ : Type}

def preceded (course : Course α σ) (r : Round α) : Course α σ :=
  { course with rounds := r :: course.rounds }

def map (view : α → β) (course : Course α σ) : Course β σ :=
  { course with rounds := course.rounds.map (Round.map view), last := view course.last }

/-- At most `n` rounds of an exchange. -/
def upTo (round : α → σ → Round α × Step α × σ) : Nat → α → σ → Course α σ
  | 0, x, bus => ⟨[], .unsettled, x, bus⟩
  | n + 1, x, bus =>
    match round x bus with
    | (r, .going next, bus) => (upTo round n next bus).preceded r
    | (r, .ended ending last, bus) => ⟨[r], ending, last, bus⟩

end Course

end CardLink
