import CardLink.Block

/-!
# Card actions

What a card does when it is polled, its blocks described without address and check, and the chain of
blocks in which it sends a long response.
-/

namespace CardLink

/-- What a card does at one poll. -/
inductive CardAction where
  | info (seq more : Bool) (inf : Bytes)
  | ack (seq : Bool)
  -- A supervisory request, with a value if it carries one
  | request (kind : Supervisory) (value : Option UInt8)
  -- A supervisory response, with a value if it carries one
  | response (kind : Supervisory) (value : Option UInt8)
  | silence
deriving DecidableEq, Repr

namespace CardAction

/-- The control byte and information field of a block. Silence has none. -/
def content? : CardAction → Option (Pcb × Bytes)
  | info seq more inf => some (.info seq more, inf)
  | ack seq => some (.ack seq, [])
  | request kind value => some (.request kind, value.toList)
  | response kind value => some (.response kind, value.toList)
  | silence => none

/-- The information blocks for a list of pieces, with alternating sequence bits. All but the last
    announce that more follows. -/
def chain (seq : Bool) : List Bytes → List CardAction
  | [] => []
  | [last] => [.info seq false last]
  | piece :: next :: rest => .info seq true piece :: chain (!seq) (next :: rest)

/-- The blocks in which a card sends `data`, at most `chunk` bytes in each. An empty response is one
    empty block. -/
def respond (data : Bytes) (chunk : Nat) (first : Bool) : List CardAction :=
  chain first (if data.isEmpty then [[]] else data.chunks chunk)

/-- The acknowledgements of `n` blocks of the host that more follows, with bits that alternate from
    `seq` on. -/
def acknowledge (seq : Bool) : Nat → List CardAction
  | 0 => []
  | n + 1 => .ack (!seq) :: acknowledge (!seq) n

end CardAction

end CardLink
