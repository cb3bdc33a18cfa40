import CardLink.Text.Hex

/-!
# Errors

Everything that can go wrong in an exchange, on the link or in the configuration, with its text and
its numeric code. The codes 0 to 2 belong to the protocol, negative codes to the library, and a
backend reports codes of its own.
-/

namespace CardLink

/-- A failure of the library. -/
inductive Error where
  | hardFail (reason : String)
  | abort
  | deviceReset
  | timeout
  -- A length differs from the one the context asks for
  | invalidLength (expected actual : Nat)
  -- The check that a block carries is not the check of its bytes
  | checksumMismatch (expected actual : UInt8)
  | frameFormat (reason : String)
  -- A failure of the backend, under a code of its own
  | hardware (backend : String) (code : Int) (reason : String)
  -- Options or parts with which no session can be opened
  | config (reason : String)
  | unsupported (operation : String)
deriving DecidableEq, Repr

/-- What a session remembers of a failure. -/
structure Report where
  code : Int
  message : String
deriving DecidableEq, Repr

namespace Error

def message : Error → String
  | hardFail reason => s!"T=1 hard failure: {reason}"
  | abort => "T=1 abort"
  | deviceReset => "T=1 device reset failed"
  | timeout => "timed out polling for value"
  | invalidLength expected actual => s!"invalid length: expected {expected}, got {actual}"
  | checksumMismatch expected actual =>
    "checksum mismatch: expected " ++ Hex.numeral expected ++ ", got " ++ Hex.numeral actual
  | frameFormat reason => s!"frame format error: {reason}"
  | hardware backend code reason => s!"{backend}: {reason} (code {code})"
  | config reason => s!"configuration error: {reason}"
  | unsupported operation => s!"unsupported operation: {operation}"

def code : Error → Int
  | abort => 1
  | deviceReset => 2
  | timeout => -2
  | unsupported _ => -1
  | hardware _ code _ => code
  | hardFail _ | invalidLength _ _ | checksumMismatch _ _ | frameFormat _ | config _ => 0

def report (e : Error) : Report := ⟨e.code, e.message⟩

end Error

end CardLink
