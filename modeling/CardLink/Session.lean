import CardLink.Host.Run

/-!
# Sessions

A `Setup` is a backend with the options to use it with. Connecting it gives a `Session`, in which
exchanges follow each other: the sequence bits carry over from one to the next, and the session
remembers the failure of the last one. Disconnecting gives the setup back.
-/

namespace CardLink

/-- A backend that is not in use, and the options to use it with. -/
structure Setup (σ : Type) where
  backend : σ
  options : Options

/-- A backend in use. -/
structure Session (σ : Type) where
  backend : σ
  options : Options
  sequence : Sequence := .fresh
  -- What went wrong in the last exchange, if something did
  lastError : Option Report := none

variable {σ : Type} [Backend σ]

/-! ## Setting up -/

namespace Setup

def announced (backend : σ) : Setup σ := ⟨backend, Backend.options backend⟩

/-- Choices that replace what the backend announces. -/
structure Choices where
  options : Option Options := none
  -- The address to listen for and the address to send to
  addresses : Option (UInt8 × UInt8) := none
  bwt : Option Duration := none
  etu : Option Duration := none
  convention : Option Convention := none
deriving Inhabited

def Choices.apply (choices : Choices) (announced : Options) : Options :=
  let base := choices.options.getD announced
  { host := (choices.addresses.map Prod.fst).getD base.host
    node := (choices.addresses.map Prod.snd).getD base.node
    bwt := choices.bwt.getD base.bwt
    etu := choices.etu.getD base.etu
    convention := choices.convention.or base.convention }

def build (backend : Option σ) (choices : Choices) : Except Error (Setup σ) :=
  match backend with
  | some backend => .ok ⟨backend, choices.apply (Backend.options backend)⟩
  | none => .error (.config "no transport provided")

/-- Puts the backend to use, under options with which exchanges can succeed. -/
def connect (setup : Setup σ) : Except Error (Session σ) := do
  setup.options.validate
  match (Backend.connect : Bus σ Unit).run setup.backend with
  | .ok _ backend => return { backend, options := setup.options }
  | .error e _ => throw e

end Setup

/-! ## In session -/

/-- What a session can be asked to do. -/
inductive Operation where
  -- Send a payload, and receive at most `capacity` bytes of the response
  | transceive (payload : Bytes) (capacity : Nat)
  -- Announce the largest information field that the host takes
  | negotiateIfs (ifs : Ifs)
  -- Ask the card to give up a chain
  | abort
deriving DecidableEq

def Operation.host (op : Operation) (s : Sequence) : Host :=
  match op with
  | transceive payload capacity => .start .transceive s (.start payload capacity)
  | negotiateIfs ifs => .start (.negotiateIfs ifs) s (.start [] 0)
  | abort => .start .abort s (.start [] 0)

namespace Session

def course (s : Session σ) (op : Operation) : Course Host σ :=
  (op.host s.sequence).run s.options s.backend

def continued (s : Session σ) (course : Course Host σ) : Session σ :=
  { s with
    backend := course.bus
    sequence := course.last.sequence
    lastError := course.ending.error?.map Error.report }

def perform (s : Session σ) (op : Operation) : Ending × Session σ :=
  let course := s.course op
  (course.ending, s.continued course)

def disconnect (s : Session σ) : Except Error (Setup σ) :=
  match (Backend.disconnect : Bus σ Unit).run s.backend with
  | .ok _ backend => .ok ⟨backend, s.options⟩
  | .error e _ => .error e

end Session

end CardLink
