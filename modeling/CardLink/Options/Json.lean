import CardLink.Json.Value
import CardLink.Options.Basic

/-!
# Options and sizes in JSON

Options are written as an object of four members in a fixed order; the convention is left out.

They are read from such an object, whose members may come in any order and among others, or from an
array of the values alone. A member that is missing, or an array that is short, leaves the default.
What is there has to be right: numbers are plain digits in range, a known key appears once, and a
duration has exactly its two parts.
-/

namespace CardLink

namespace Duration

def toJson (d : Duration) : Json :=
  .object [("secs".toList, .ofNat d.seconds), ("nanos".toList, .ofNat d.subsecNanos)]

/-- The duration of two parts. Nanoseconds are a 32-bit number and carry into the seconds. -/
def ofJsonParts? (seconds nanos : Json) : Option Duration := do
  ofParts? (← seconds.natBelow? UInt64.size) (← nanos.natBelow? UInt32.size)

/-- Reads a duration from an object of exactly two members, or from an array of two values. -/
def ofJson? : Json → Option Duration
  | .object members =>
    match Json.valuesOf "secs" members, Json.valuesOf "nanos" members with
    | [seconds], [nanos] => if members.length = 2 then ofJsonParts? seconds nanos else none
    | _, _ => none
  | .array [seconds, nanos] => ofJsonParts? seconds nanos
  | _ => none

end Duration

namespace Options

def toJson (o : Options) : Json :=
  .object
    [("host_address".toList, .ofNat o.host.toNat),
      ("node_address".toList, .ofNat o.node.toNat),
      ("bwt".toList, o.bwt.toJson),
      ("etu".toList, o.etu.toJson)]

def ofJson? : Json → Option Options
  | .object members => do
    -- Every key has to be a text, also one that is then ignored.
    guard (members.all fun (raw, _) => (Json.unescape? raw).isSome)
    let host ← Json.field? members "host_address" Json.byte? ({} : Options).host
    let node ← Json.field? members "node_address" Json.byte? ({} : Options).node
    let bwt ← Json.field? members "bwt" Duration.ofJson? ({} : Options).bwt
    let etu ← Json.field? members "etu" Duration.ofJson? ({} : Options).etu
    return { host, node, bwt, etu }
  | .array items => do
    guard (items.length ≤ 4)
    let host ← Json.item? items 0 Json.byte? ({} : Options).host
    let node ← Json.item? items 1 Json.byte? ({} : Options).node
    let bwt ← Json.item? items 2 Duration.ofJson? ({} : Options).bwt
    let etu ← Json.item? items 3 Duration.ofJson? ({} : Options).etu
    return { host, node, bwt, etu }
  | _ => none

def serialize (o : Options) : String := o.toJson.render

def parse? (text : String) : Option Options := (Json.ofText? text).bind ofJson?

end Options

namespace Ifs

def serialize (ifs : Ifs) : String := (Json.ofNat ifs.toNat).render

def parse? (text : String) : Option Ifs :=
  (Json.ofText? text).bind fun value => value.byte?.bind ofByte?

end Ifs

end CardLink
