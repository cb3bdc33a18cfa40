import CardLink.Json.Token
import CardLink.Text.Decimal

/-!
# JSON values

The tree that a sequence of tokens spells, and the tokens of a tree.

`Json.ofTokens?` reads token by token. Where it stands is a `Context`, the containers it has entered
and not yet left, and a `Reader`, what may follow there. A value is read when all containers are
closed again and no token is left.
-/

namespace CardLink

/-- A JSON value. Numbers and strings keep their spelling; objects keep order and repeated keys. -/
inductive Json where
  | null
  | boolean (value : Bool)
  | number (lexeme : List Char)
  | text (raw : List Char)
  | array (items : List Json)
  | object (members : List (List Char × Json))

namespace Json

/-! ## Reading -/

/-- The containers around the place where a reader stands. -/
inductive Context where
  | top
  | inArray (before : List Json) (outer : Context)
  -- At a key's value, behind some members of an object
  | inObject (before : List (List Char × Json)) (key : List Char) (outer : Context)

/-- What may follow. -/
inductive Reader where
  | value (place : Context)
  | firstItem (outer : Context)
  | firstKey (outer : Context)
  | nextKey (before : List (List Char × Json)) (outer : Context)
  | afterKey (before : List (List Char × Json)) (key : List Char) (outer : Context)
  -- A comma or the end of the container, behind a whole value
  | afterValue (read : Json) (place : Context)

def Reader.enter (place : Context) : Token → Option Reader
  | .null => some (.afterValue .null place)
  | .boolean b => some (.afterValue (.boolean b) place)
  | .number lexeme => some (.afterValue (.number lexeme) place)
  | .quoted raw => some (.afterValue (.text raw) place)
  | .openBracket => some (.firstItem place)
  | .openBrace => some (.firstKey place)
  | .closeBracket | .closeBrace | .colon | .comma => none

def Reader.step : Reader → Token → Option Reader
  | .value place, token => enter place token
  | .firstItem outer, .closeBracket => some (.afterValue (.array []) outer)
  | .firstItem outer, token => enter (.inArray [] outer) token
  | .firstKey outer, .closeBrace => some (.afterValue (.object []) outer)
  | .firstKey outer, .quoted key => some (.afterKey [] key outer)
  | .nextKey before outer, .quoted key => some (.afterKey before key outer)
  | .afterKey before key outer, .colon => some (.value (.inObject before key outer))
  | .afterValue read (.inArray before outer), .comma =>
    some (.value (.inArray (before ++ [read]) outer))
  | .afterValue read (.inArray before outer), .closeBracket =>
    some (.afterValue (.array (before ++ [read])) outer)
  | .afterValue read (.inObject before key outer), .comma =>
    some (.nextKey (before ++ [(key, read)]) outer)
  | .afterValue read (.inObject before key outer), .closeBrace =>
    some (.afterValue (.object (before ++ [(key, read)])) outer)
  | _, _ => none

def Reader.result? : Reader → Option Json
  | .afterValue read .top => some read
  | _ => none

def ofTokens? (tokens : List Token) : Option Json :=
  (tokens.foldlM Reader.step (.value .top)).bind Reader.result?

def ofText? (text : String) : Option Json :=
  (Token.scan text.toList).bind ofTokens?

/-! ## Writing -/

mutual
def tokens : Json → List Token
  | .null => [.null]
  | .boolean b => [.boolean b]
  | .number lexeme => [.number lexeme]
  | .text raw => [.quoted raw]
  | .array items => .openBracket :: itemTokens items ++ [.closeBracket]
  | .object members => .openBrace :: memberTokens members ++ [.closeBrace]

def itemTokens : List Json → List Token
  | [] => []
  | [item] => tokens item
  | item :: rest => tokens item ++ .comma :: itemTokens rest

def memberTokens : List (List Char × Json) → List Token
  | [] => []
  | [(key, value)] => .quoted key :: .colon :: tokens value
  | (key, value) :: rest => .quoted key :: .colon :: tokens value ++ .comma :: memberTokens rest
end

def render (j : Json) : String :=
  String.ofList (j.tokens.flatMap Token.spell)

/-! ## Parts of values -/

def ofNat (n : Nat) : Json := .number (Decimal.digits n)

/-- The natural number that a value is, written as plain digits and below `limit`. -/
def natBelow? (limit : Nat) : Json → Option Nat
  | .number lexeme => (Decimal.value? lexeme).filter (· < limit)
  | _ => none

def byte? (j : Json) : Option UInt8 :=
  (j.natBelow? 256).map UInt8.ofNat

theorem natBelow?_ofNat {n limit : Nat} (below : n < limit) : (ofNat n).natBelow? limit = some n := by
  simp [natBelow?, ofNat, Decimal.value?_digits, below]

-- For any limit: at the limits in use, comparing both sides by computation counts up to them.
theorem natBelow?_ofNat_bind {n limit : Nat} (below : n < limit) (f : Nat → Option α) :
    ((ofNat n).natBelow? limit >>= f) = f n := by
  rw [natBelow?_ofNat below]
  rfl

theorem byte?_ofNat (b : UInt8) : (ofNat b.toNat).byte? = some b := by
  rw [byte?, natBelow?_ofNat b.toNat_lt, Option.map_some, UInt8.ofNat_toNat]

def valuesOf (key : String) (members : List (List Char × Json)) : List Json :=
  members.filterMap fun (raw, value) => if unescape? raw = some key then some value else none

/-- What an object gives to an optional key: the default if it lacks the key, and nothing if it
    repeats it. -/
def field? (members : List (List Char × Json)) (key : String) (read : Json → Option α)
    (default : α) : Option α :=
  match valuesOf key members with
  | [] => some default
  | [value] => read value
  | _ => none

def item? (items : List Json) (position : Nat) (read : Json → Option α) (default : α) : Option α :=
  match items[position]? with
  | none => some default
  | some value => read value

end Json

end CardLink
