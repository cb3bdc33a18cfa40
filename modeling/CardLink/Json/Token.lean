/-!
# Lexemes of JSON

A JSON text is a sequence of tokens with blanks anywhere between them. Numbers and strings keep the
characters they were written with, so a token is spelled back exactly as it was read.

`Token.scan` splits a text into tokens. It accepts the strict grammar: no leading zeros, no bare
signs or points, no control characters or unknown escapes in strings, no other blanks than space,
tab, line feed and carriage return.
-/

namespace CardLink.Json

/-- The smallest meaningful piece of a JSON text. -/
inductive Token where
  | openBrace
  | closeBrace
  | openBracket
  | closeBracket
  | colon
  | comma
  | null
  | boolean (value : Bool)
  | number (lexeme : List Char)
  -- What stands between the quotes of a string, escapes included
  | quoted (raw : List Char)
deriving DecidableEq, Repr

/-! ## Numbers -/

def isNumberChar (c : Char) : Bool :=
  c.isDigit || c == '-' || c == '+' || c == '.' || c == 'e' || c == 'E'

def isDigits (cs : List Char) : Bool :=
  !cs.isEmpty && cs.all Char.isDigit

def isExponent : List Char → Bool
  | [] => true
  | mark :: '+' :: rest => (mark == 'e' || mark == 'E') && isDigits rest
  | mark :: '-' :: rest => (mark == 'e' || mark == 'E') && isDigits rest
  | mark :: rest => (mark == 'e' || mark == 'E') && isDigits rest

def isFraction : List Char → Bool
  | '.' :: rest =>
    isDigits (rest.takeWhile Char.isDigit) && isExponent (rest.dropWhile Char.isDigit)
  | rest => isExponent rest

/-- A number without a sign: its whole part is zero or starts with another digit. -/
def isUnsigned : List Char → Bool
  | '0' :: rest => isFraction rest
  | c :: rest => c.isDigit && isFraction (rest.dropWhile Char.isDigit)
  | [] => false

def isNumber : List Char → Bool
  | '-' :: rest => isUnsigned rest
  | cs => isUnsigned cs

/-! ## Strings -/

def hexValue? (c : Char) : Option Nat :=
  if '0' ≤ c ∧ c ≤ '9' then some (c.toNat - '0'.toNat)
  else if 'a' ≤ c ∧ c ≤ 'f' then some (c.toNat - 'a'.toNat + 10)
  else if 'A' ≤ c ∧ c ≤ 'F' then some (c.toNat - 'A'.toNat + 10)
  else none

def escapeValue? : Char → Option Nat
  | '"' => some 0x22
  | '\\' => some 0x5C
  | '/' => some 0x2F
  | 'b' => some 0x08
  | 'f' => some 0x0C
  | 'n' => some 0x0A
  | 'r' => some 0x0D
  | 't' => some 0x09
  | _ => none

def splitQuoted : List Char → Option (List Char × List Char)
  | [] => none
  | '"' :: rest => some ([], rest)
  | '\\' :: 'u' :: a :: b :: c :: d :: rest =>
    if [a, b, c, d].all fun digit => (hexValue? digit).isSome then
      (splitQuoted rest).map fun (raw, after) => ('\\' :: 'u' :: a :: b :: c :: d :: raw, after)
    else none
  | '\\' :: c :: rest =>
    if (escapeValue? c).isSome then
      (splitQuoted rest).map fun (raw, after) => ('\\' :: c :: raw, after)
    else none
  | c :: rest =>
    if c.toNat < 0x20 then none
    else (splitQuoted rest).map fun (raw, after) => (c :: raw, after)

/-- The codes of a string's characters. An escape with four digits gives one half of a surrogate
    pair as it stands. -/
def codes : List Char → List Nat
  | '\\' :: 'u' :: a :: b :: c :: d :: rest =>
    ([a, b, c, d].foldl (fun n digit => 16 * n + (hexValue? digit).getD 0) 0) :: codes rest
  | '\\' :: c :: rest => (escapeValue? c).getD 0 :: codes rest
  | c :: rest => c.toNat :: codes rest
  | [] => []

/-- The characters of a string of codes in which every surrogate has its other half beside it. -/
def ofCodes : List Nat → Option (List Char)
  | [] => some []
  | code :: rest =>
    if 0xD800 ≤ code ∧ code < 0xDC00 then
      match rest with
      | low :: rest =>
        if 0xDC00 ≤ low ∧ low < 0xE000 then
          (ofCodes rest).map
            (Char.ofNat (0x10000 + (code - 0xD800) * 0x400 + (low - 0xDC00)) :: ·)
        else none
      | [] => none
    else if 0xDC00 ≤ code ∧ code < 0xE000 then none
    else (ofCodes rest).map (Char.ofNat code :: ·)

/-- The text of a string, which has none if it holds half a surrogate pair. -/
def unescape? (raw : List Char) : Option String :=
  (ofCodes (codes raw)).map String.ofList

/-! ## Scanning -/

def isBlank (c : Char) : Bool :=
  c == ' ' || c == '\t' || c == '\n' || c == '\r'

def punctuation? : Char → Option Token
  | '\x7b' => some .openBrace
  | '\x7d' => some .closeBrace
  | '[' => some .openBracket
  | ']' => some .closeBracket
  | ':' => some .colon
  | ',' => some .comma
  | _ => none

def word? : List Char → Option Token
  | ['n', 'u', 'l', 'l'] => some .null
  | ['t', 'r', 'u', 'e'] => some (.boolean true)
  | ['f', 'a', 'l', 's', 'e'] => some (.boolean false)
  | _ => none

theorem length_lt_of_splitQuoted {cs raw rest : List Char}
    (found : splitQuoted cs = some (raw, rest)) : rest.length < cs.length := by
  fun_induction splitQuoted cs generalizing raw with
  | case1 => simp at found
  | case2 after =>
    simp only [Option.some.injEq, Prod.mk.injEq] at found
    simp [← found.2]
  | case3 a b c d tail _ ih =>
    obtain ⟨⟨inner, after⟩, split, eq⟩ := Option.map_eq_some_iff.1 found
    simp only [Prod.mk.injEq] at eq
    have := ih (eq.2 ▸ split)
    simp only [List.length_cons]
    omega
  | case4 => simp at found
  | case5 c tail _ _ ih =>
    obtain ⟨⟨inner, after⟩, split, eq⟩ := Option.map_eq_some_iff.1 found
    simp only [Prod.mk.injEq] at eq
    have := ih (eq.2 ▸ split)
    simp only [List.length_cons]
    omega
  | case6 => simp at found
  | case7 => simp at found
  | case8 c tail _ _ _ _ ih =>
    obtain ⟨⟨inner, after⟩, split, eq⟩ := Option.map_eq_some_iff.1 found
    simp only [Prod.mk.injEq] at eq
    have := ih (eq.2 ▸ split)
    simp only [List.length_cons]
    omega

theorem length_dropWhile_le (p : Char → Bool) (cs : List Char) :
    (cs.dropWhile p).length ≤ cs.length :=
  (List.dropWhile_suffix p).length_le

namespace Token

def scan (text : List Char) : Option (List Token) :=
  match text with
  | [] => some []
  | c :: rest =>
    if isBlank c then scan rest
    else if c = '"' then
      -- A string ends at its closing quote.
      match h : splitQuoted rest with
      | some (raw, after) =>
        have := length_lt_of_splitQuoted h
        (scan after).map (.quoted raw :: ·)
      | none => none
    else if isNumberChar c then
      -- A number ends where no character of a number follows, and is checked as a whole.
      if isNumber (c :: rest.takeWhile isNumberChar) then
        have := length_dropWhile_le isNumberChar rest
        (scan (rest.dropWhile isNumberChar)).map
          (.number (c :: rest.takeWhile isNumberChar) :: ·)
      else none
    else if c.isAlpha then
      -- The same holds for words.
      match word? (c :: rest.takeWhile Char.isAlpha) with
      | some token =>
        have := length_dropWhile_le Char.isAlpha rest
        (scan (rest.dropWhile Char.isAlpha)).map (token :: ·)
      | none => none
    else
      match punctuation? c with
      | some token => (scan rest).map (token :: ·)
      | none => none
termination_by text.length
decreasing_by all_goals simp only [List.length_cons]; omega

def spell : Token → List Char
  | openBrace => ['\x7b']
  | closeBrace => ['\x7d']
  | openBracket => ['[']
  | closeBracket => [']']
  | colon => [':']
  | comma => [',']
  | null => ['n', 'u', 'l', 'l']
  | boolean true => ['t', 'r', 'u', 'e']
  | boolean false => ['f', 'a', 'l', 's', 'e']
  | number lexeme => lexeme
  | quoted raw => '"' :: raw ++ ['"']

end Token

end CardLink.Json
