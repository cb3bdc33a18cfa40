import CardLink.Backend.Basic
import CardLink.Backend.CardAction
import CardLink.Frame.Codec

/-!
# A card that follows a script

A backend that holds a list of replies and plays one of them back for each poll, whatever was sent.
It remembers every frame that was sent and the timeout of every poll. When the list is used up, it
stays silent.
-/

namespace CardLink

/-- Faults that a scripted card can have. -/
inductive CardFault where
  -- Reading from the bus fails
  | bus
  -- The reset line cannot be moved
  | resetLine
deriving DecidableEq, Repr

/-- What the scripted card does at one poll. -/
inductive Reply where
  -- Sends bytes, which match the poll if they start with its address
  | frame (bytes : Bytes)
  | silence
  | fault (f : CardFault)
  -- Matches the poll, and lets the first read behind it fail
  | readFault (f : CardFault)
deriving DecidableEq, Repr

/-- A scripted card and what it has seen. -/
structure ScriptedCard where
  -- The options that the card announces
  settings : Options := { bwt := Duration.ofMillis 10 }
  -- Replies not yet played back
  replies : List Reply := []
  -- Every complete frame that was sent to the card
  heard : List Bytes := []
  -- The timeout of every poll
  polls : List Duration := []
  resets : Nat := 0
  hasReset : Bool := false
  -- Resets that are still to fail
  failingResets : Nat := 0
  opened : Bool := false
  -- A frame is being read, and the bus is held
  busHeld : Bool := false
  -- Bytes of a frame that is not complete yet
  pending : Bytes := []
  -- What is left of the reply that is being read
  unread : Option Bytes := none
  -- The fault that awaits the next read
  readFault : Option CardFault := none
deriving Inhabited

namespace ScriptedCard

def name : String := "mock"

end ScriptedCard

def CardFault.error : CardFault → Error
  | .bus => .hardware ScriptedCard.name 3 "bus read failed"
  | .resetLine => .hardware ScriptedCard.name 4 "unable to toggle reset line"

namespace ScriptedCard

/-! ## Writing the script -/

def ofReplies (replies : List Reply) : ScriptedCard := { replies }

def push (card : ScriptedCard) (replies : List Reply) : ScriptedCard :=
  { card with replies := card.replies ++ replies }

def frameReply (card : ScriptedCard) (pcb : Pcb) (inf : Bytes) : Except Error Reply :=
  (Frame.encode card.settings.host pcb inf).map .frame

def actionReply (card : ScriptedCard) (action : CardAction) : Except Error Reply :=
  match action.content? with
  | some (pcb, inf) => card.frameReply pcb inf
  | none => .ok .silence

/-- Appends actions to the script up to the first whose block fits no frame, which is reported. -/
def playing (card : ScriptedCard) : List CardAction → Except Error Unit × ScriptedCard
  | [] => (.ok (), card)
  | action :: rest =>
    match card.actionReply action with
    | .ok reply => (card.push [reply]).playing rest
    | .error e => (.error e, card)

/-! ## Looking back -/

/-- The control bytes of the frames that were sent and are long enough to have one. -/
def heardPcbs (card : ScriptedCard) : List Pcb :=
  card.heard.filterMap fun bytes => bytes[1]?.map Pcb.ofByte

def heardFrames (card : ScriptedCard) : List Frame :=
  card.heard.filterMap fun bytes => (Frame.decode bytes).toOption

/-! ## On the bus -/

/-- Reads on in the current reply. A pending fault strikes at the first read that asks for bytes. -/
def receive (room : Nat) (complete : Bool) : Bus ScriptedCard Reading := fun card =>
  match card.readFault, room with
  | some fault, _ + 1 => .error fault.error { card with readFault := none }
  | _, _ =>
    let data := (card.unread.getD []).take room
    .ok (.ofBytes data) <|
      if complete then { card with unread := none, readFault := none, busHeld := false }
      else { card with unread := card.unread.map (List.drop data.length) }

def transmit (data : Bytes) (complete : Bool) : Bus ScriptedCard Nat := fun card =>
  .ok data.length <|
    if complete then { card with heard := card.heard ++ [card.pending ++ data], pending := [] }
    else { card with pending := card.pending ++ data }

def answerPoll (reply : Reply) (nad : UInt8) (complete : Bool) : Bus ScriptedCard PollResult :=
  fun card =>
    match reply with
    | .silence => .ok .timedOut card
    | .fault fault => .error fault.error card
    | .readFault fault => .ok .matched { card with readFault := some fault, busHeld := !complete }
    | .frame [] => .ok .timedOut card
    | .frame (address :: bytes) =>
      if address = nad then .ok .matched { card with unread := some bytes, busHeld := !complete }
      else .ok .timedOut card

def poll (nad : UInt8) (timeout : Duration) (complete : Bool) : Bus ScriptedCard PollResult :=
  fun card =>
    let polls := card.polls ++ [timeout]
    match card.replies with
    | [] => .ok .timedOut { card with polls }
    | reply :: rest => answerPoll reply nad complete { card with polls, replies := rest }

def reset : Bus ScriptedCard Unit := fun card =>
  if card.hasReset then
    match card.failingResets with
    | failures + 1 => .error CardFault.resetLine.error { card with failingResets := failures }
    | 0 => .ok () { card with resets := card.resets + 1 }
  else .error (.unsupported (name ++ " has no hardware reset")) card

/-- Each poll uses up one reply. A silent card is given up within eight rounds. -/
instance : Backend ScriptedCard where
  name := name
  options := settings
  connect card := .ok () { card with opened := true }
  disconnect card := .ok () { card with opened := false }
  receive := receive
  transmit := transmit
  poll := poll
  reset := reset
  horizon card := card.replies.length + 8

end ScriptedCard

end CardLink
