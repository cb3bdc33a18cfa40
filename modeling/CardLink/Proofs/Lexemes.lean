import Mathlib.Data.List.Chain
import CardLink.Json.Token
import CardLink.Text.Decimal

/-!
# The spelling of tokens

The grammar of the tokens that have more than one spelling: numbers (`Numeral`), strings (`Quoted`), and
which text a string stands for (`Spells`). A sequence of tokens is spelled by writing one behind the other
with any blanks before, between and after them (`Spelled`).

Scanning finds the tokens again, wherever the blanks are, as long as of two neighbours one has an end of its
own (`scan_of_spelled`): a bracket, a brace, a colon, a comma or a string.
-/

namespace CardLink.Json

/-! ## Characters up to one that does not belong -/

/-- A text does not go on with a character of this kind. -/
def Stops (p : Char → Bool) (rest : List Char) : Prop := ∀ c ∈ rest.head?, p c = false

section Stops

variable {p : Char → Bool} {front rest : List Char} (all : ∀ c ∈ front, p c = true) (stops : Stops p rest)
include all stops

theorem takeWhile_of_stops : (front ++ rest).takeWhile p = front := by
  rw [List.takeWhile_append_of_pos all]
  cases rest with
  | nil => simp
  | cons c rest =>
    have other : p c = false := stops c rfl
    simp [other]

theorem dropWhile_of_stops : (front ++ rest).dropWhile p = rest := by
  rw [List.dropWhile_append_of_pos all]
  cases rest with
  | nil => simp
  | cons c rest =>
    have other : p c = false := stops c rfl
    simp [other]

end Stops

/-! ## Numbers -/

def Digits (cs : List Char) : Prop := cs ≠ [] ∧ ∀ c ∈ cs, c.isDigit = true

/-- The part before the point has no leading zeros. -/
inductive Whole : List Char → Prop where
  | zero : Whole ['0']
  | other {c rest} (digit : c.isDigit = true) (nonzero : c ≠ '0') (digits : ∀ c ∈ rest, c.isDigit = true) :
      Whole (c :: rest)

inductive Fraction : List Char → Prop where
  | none : Fraction []
  | some {cs} (digits : Digits cs) : Fraction ('.' :: cs)

inductive Exponent : List Char → Prop where
  | none : Exponent []
  | unsigned {mark cs} (e : mark = 'e' ∨ mark = 'E') (digits : Digits cs) : Exponent (mark :: cs)
  | signed {mark sign cs} (e : mark = 'e' ∨ mark = 'E') (pm : sign = '+' ∨ sign = '-') (digits : Digits cs) :
      Exponent (mark :: sign :: cs)

inductive Unsigned : List Char → Prop where
  | mk {whole fraction exponent} (w : Whole whole) (f : Fraction fraction) (e : Exponent exponent) :
      Unsigned (whole ++ (fraction ++ exponent))

inductive Numeral : List Char → Prop where
  | positive {cs} (unsigned : Unsigned cs) : Numeral cs
  | negative {cs} (unsigned : Unsigned cs) : Numeral ('-' :: cs)

section Numbers

variable {cs whole fraction exponent : List Char}

theorem Digits.isDigits (digits : Digits cs) : isDigits cs = true := by
  simpa [Json.isDigits, Digits] using digits

theorem Digits.exists_cons (digits : Digits cs) : ∃ c rest, cs = c :: rest ∧ c.isDigit = true := by
  cases cs with
  | nil => exact absurd rfl digits.1
  | cons c rest => exact ⟨c, rest, rfl, digits.2 c List.mem_cons_self⟩

theorem Exponent.isExponent (e : Exponent exponent) : isExponent exponent = true := by
  cases e with
  | none => rfl
  | unsigned mark digits =>
    have all := digits.isDigits
    obtain ⟨c, rest, rfl, digit⟩ := digits.exists_cons
    have plus : c ≠ '+' := by rintro rfl; cases digit
    have minus : c ≠ '-' := by rintro rfl; cases digit
    simp [Json.isExponent, mark, all, plus, minus]
  | signed mark sign digits =>
    rcases sign with rfl | rfl <;> simp [Json.isExponent, mark, digits.isDigits]

theorem Exponent.stops (e : Exponent exponent) : Stops Char.isDigit exponent := by
  cases e with
  | none => exact nofun
  | unsigned mark | signed mark =>
    rintro c ⟨⟩
    rcases mark with rfl | rfl <;> rfl

theorem isFraction_of_exponent (f : Fraction fraction) (e : Exponent exponent) :
    isFraction (fraction ++ exponent) = true := by
  cases f with
  | none =>
    have rest := e.isExponent
    cases e with
    | none => rfl
    | unsigned mark | signed mark => rcases mark with rfl | rfl <;> exact rest
  | some digits =>
    have front := takeWhile_of_stops digits.2 e.stops
    have back := dropWhile_of_stops digits.2 e.stops
    simp [isFraction, front, back, digits.isDigits, e.isExponent]

theorem Fraction.stops (f : Fraction fraction) (e : Exponent exponent) :
    Stops Char.isDigit (fraction ++ exponent) := by
  cases f with
  | none => exact e.stops
  | some =>
    rintro c ⟨⟩
    rfl

theorem Whole.exists_cons (w : Whole whole) : ∃ c rest, whole = c :: rest ∧ c.isDigit = true := by
  cases w with
  | zero => exact ⟨_, _, rfl, rfl⟩
  | other digit => exact ⟨_, _, rfl, digit⟩

theorem Unsigned.exists_cons (unsigned : Unsigned cs) : ∃ c rest, cs = c :: rest ∧ c.isDigit = true := by
  cases unsigned with
  | mk w =>
    obtain ⟨c, rest, rfl, digit⟩ := w.exists_cons
    exact ⟨c, _, rfl, digit⟩

theorem Unsigned.isUnsigned (unsigned : Unsigned cs) : isUnsigned cs = true := by
  cases unsigned with
  | mk w f e =>
    have rest := isFraction_of_exponent f e
    cases w with
    | zero => exact rest
    | other digit nonzero digits =>
      have back := dropWhile_of_stops digits (f.stops e)
      simp [Json.isUnsigned, digit, back, rest]

theorem Numeral.isNumber (numeral : Numeral cs) : isNumber cs = true := by
  cases numeral with
  | positive unsigned =>
    have accepted := unsigned.isUnsigned
    obtain ⟨c, rest, rfl, digit⟩ := unsigned.exists_cons
    have plain : c ≠ '-' := by rintro rfl; cases digit
    simpa [Json.isNumber, plain] using accepted
  | negative unsigned => exact unsigned.isUnsigned

/-! A number is made of the characters that a scanner takes for one. -/

theorem isNumberChar_of_isDigit {c : Char} (digit : c.isDigit = true) : isNumberChar c = true := by
  simp [isNumberChar, digit]

theorem Whole.isNumberChar (w : Whole whole) : ∀ c ∈ whole, isNumberChar c = true := by
  cases w with
  | zero => simp [Json.isNumberChar]
  | other digit _ digits =>
    rintro c (_ | ⟨_, later⟩)
    · exact isNumberChar_of_isDigit digit
    · exact isNumberChar_of_isDigit (digits c later)

theorem Fraction.isNumberChar (f : Fraction fraction) : ∀ c ∈ fraction, isNumberChar c = true := by
  cases f with
  | none => exact nofun
  | some digits =>
    rintro c (_ | ⟨_, later⟩)
    · rfl
    · exact isNumberChar_of_isDigit (digits.2 c later)

theorem Exponent.isNumberChar (e : Exponent exponent) : ∀ c ∈ exponent, isNumberChar c = true := by
  cases e with
  | none => exact nofun
  | unsigned mark digits =>
    rintro c (_ | ⟨_, later⟩)
    · rcases mark with rfl | rfl <;> rfl
    · exact isNumberChar_of_isDigit (digits.2 c later)
  | signed mark sign digits =>
    rintro c (_ | ⟨_, _ | ⟨_, later⟩⟩)
    · rcases mark with rfl | rfl <;> rfl
    · rcases sign with rfl | rfl <;> rfl
    · exact isNumberChar_of_isDigit (digits.2 c later)

theorem Unsigned.isNumberChar (unsigned : Unsigned cs) : ∀ c ∈ cs, isNumberChar c = true := by
  cases unsigned with
  | mk w f e =>
    intro c member
    rcases List.mem_append.mp member with inWhole | behind
    · exact w.isNumberChar c inWhole
    rcases List.mem_append.mp behind with inFraction | inExponent
    · exact f.isNumberChar c inFraction
    · exact e.isNumberChar c inExponent

/-- A number has a first character, and all of its characters are taken for parts of a number. -/
theorem Numeral.exists_cons (numeral : Numeral cs) : ∃ c rest, cs = c :: rest ∧ isNumberChar c = true ∧
    ∀ d ∈ rest, Json.isNumberChar d = true := by
  cases numeral with
  | positive unsigned =>
    have parts := unsigned.isNumberChar
    obtain ⟨c, rest, rfl, digit⟩ := unsigned.exists_cons
    exact ⟨c, rest, rfl, isNumberChar_of_isDigit digit, fun d later => parts d (List.mem_cons_of_mem c later)⟩
  | negative unsigned => exact ⟨'-', _, rfl, rfl, unsigned.isNumberChar⟩

/-- The digits of a natural number are a number. -/
theorem numeral_digits (n : Nat) : Numeral (Decimal.digits n) := by
  have whole : Whole (Decimal.digits n) := by
    rcases Nat.eq_zero_or_pos n with rfl | pos
    · rw [Decimal.digits]
      exact .zero
    · have digit := fun c member => Decimal.isDigit_of_mem_digits (n := n) (c := c) member
      obtain ⟨c, rest, shape, nonzero⟩ := Decimal.digits_of_pos pos
      rw [shape] at digit ⊢
      exact .other (digit c List.mem_cons_self) nonzero fun d later => digit d (List.mem_cons_of_mem c later)
  simpa using Numeral.positive (.mk whole .none .none)

end Numbers

/-! ## Strings -/

/-- A hexadecimal digit in either case, and its value. -/
def HexDigit (c : Char) (value : Nat) : Prop :=
  value < 16 ∧ (c = Nat.digitChar value ∨ c = (Nat.digitChar value).toUpper)

/-- Four hexadecimal digits, and their value. -/
inductive HexCode : List Char → Nat → Prop where
  | mk {a b c d w x y z} (first : HexDigit a w) (second : HexDigit b x) (third : HexDigit c y)
      (fourth : HexDigit d z) : HexCode [a, b, c, d] (16 * (16 * (16 * w + x) + y) + z)

/-- The letters of the short escapes, and the characters that these stand for. -/
def escapes : List (Char × Char) :=
  [('"', '"'), ('\\', '\\'), ('/', '/'), ('b', '\x08'), ('f', '\x0c'), ('n', '\n'), ('r', '\r'), ('t', '\t')]

/-- A character that may stand for itself in a string. -/
def IsPlain (c : Char) : Prop := c ≠ '"' ∧ c ≠ '\\' ∧ 0x20 ≤ c.toNat

/-- What may stand between the quotes of a string. -/
inductive Quoted : List Char → Prop where
  | nil : Quoted []
  | plain {c raw} (self : IsPlain c) (rest : Quoted raw) : Quoted (c :: raw)
  | escape {letter c raw} (short : (letter, c) ∈ escapes) (rest : Quoted raw) : Quoted ('\\' :: letter :: raw)
  | code {hex n raw} (code : HexCode hex n) (rest : Quoted raw) : Quoted ('\\' :: 'u' :: (hex ++ raw))

/-- `Spells raw text` says that a string with `raw` between its quotes stands for `text`. A character beyond
    four hexadecimal digits is written as two surrogates. -/
inductive Spells : List Char → List Char → Prop where
  | nil : Spells [] []
  | plain {c raw text} (self : IsPlain c) (rest : Spells raw text) : Spells (c :: raw) (c :: text)
  | escape {letter c raw text} (short : (letter, c) ∈ escapes) (rest : Spells raw text) :
      Spells ('\\' :: letter :: raw) (c :: text)
  | code {hex c raw text} (code : HexCode hex c.toNat) (rest : Spells raw text) :
      Spells ('\\' :: 'u' :: (hex ++ raw)) (c :: text)
  | surrogates {hex hex' high low c raw text} (code : HexCode hex (0xD800 + high))
      (code' : HexCode hex' (0xDC00 + low)) (high_lt : high < 0x400) (low_lt : low < 0x400)
      (value : c.toNat = 0x10000 + high * 0x400 + low) (rest : Spells raw text) :
      Spells ('\\' :: 'u' :: (hex ++ '\\' :: 'u' :: (hex' ++ raw))) (c :: text)

section Strings

variable {raw text hex : List Char} {c : Char} {n : Nat}

theorem Spells.quoted (spells : Spells raw text) : Quoted raw := by
  induction spells with
  | nil => exact .nil
  | plain self _ ih => exact .plain self ih
  | escape short _ ih => exact .escape short ih
  | code code _ ih => exact .code code ih
  | surrogates code code' _ _ _ _ ih => exact .code code (.code code' ih)

/-- A text of plain characters is spelled as itself. -/
theorem spells_of_plain (plain : ∀ c ∈ text, IsPlain c) : Spells text text := by
  induction text with
  | nil => exact .nil
  | cons c text ih =>
    exact .plain (plain c List.mem_cons_self) (ih fun d later => plain d (List.mem_cons_of_mem c later))

theorem hexValue?_of_hexDigit (digit : HexDigit c n) : hexValue? c = some n := by
  have all : ∀ value < 16, hexValue? (Nat.digitChar value) = some value ∧
      hexValue? (Nat.digitChar value).toUpper = some value := by decide
  obtain ⟨small, rfl | rfl⟩ := digit
  · exact (all n small).1
  · exact (all n small).2

theorem escapeValue?_of_escapes {letter : Char} (short : (letter, c) ∈ escapes) :
    escapeValue? letter = some c.toNat ∧ letter ≠ 'u' := by
  have all : ∀ pair ∈ escapes, escapeValue? pair.1 = some pair.2.toNat ∧ pair.1 ≠ 'u' := by
    simp [escapes, escapeValue?]
  exact all _ short

theorem splitQuoted_of_quoted (quoted : Quoted raw) (after : List Char) :
    splitQuoted (raw ++ '"' :: after) = some (raw, after) := by
  induction quoted with
  | nil => simp [splitQuoted]
  | plain self _ ih =>
    obtain ⟨quote, slash, printable⟩ := self
    simp [splitQuoted, slash, Nat.not_lt_of_le printable, ih]
  | escape short _ ih =>
    obtain ⟨value, notCode⟩ := escapeValue?_of_escapes short
    simp [splitQuoted, notCode, value, ih]
  | code code _ ih =>
    cases code with
    | mk first second third fourth =>
      simp [splitQuoted, hexValue?_of_hexDigit first, hexValue?_of_hexDigit second,
        hexValue?_of_hexDigit third, hexValue?_of_hexDigit fourth, ih]

theorem codes_of_hexCode (code : HexCode hex n) (raw : List Char) :
    codes ('\\' :: 'u' :: (hex ++ raw)) = n :: codes raw := by
  cases code with
  | mk first second third fourth =>
    simp [codes, hexValue?_of_hexDigit first, hexValue?_of_hexDigit second, hexValue?_of_hexDigit third,
      hexValue?_of_hexDigit fourth]

theorem codes_of_escape {letter : Char} (short : (letter, c) ∈ escapes) (raw : List Char) :
    codes ('\\' :: letter :: raw) = c.toNat :: codes raw := by
  obtain ⟨value, notCode⟩ := escapeValue?_of_escapes short
  simp [codes, notCode, value]

/-- A character is no half of a surrogate pair. -/
theorem ofCodes_char (c : Char) (rest : List Nat) :
    ofCodes (c.toNat :: rest) = (ofCodes rest).map (c :: ·) := by
  have valid : c.toNat < 0xD800 ∨ 0xDFFF < c.toNat ∧ c.toNat < 0x110000 := c.valid
  have notHigh : ¬ (0xD800 ≤ c.toNat ∧ c.toNat < 0xDC00) := by omega
  have notLow : ¬ (0xDC00 ≤ c.toNat ∧ c.toNat < 0xE000) := by omega
  rw [ofCodes.eq_def]
  simp only [if_neg notHigh, if_neg notLow, Char.ofNat_toNat]

theorem ofCodes_surrogates {high low : Nat} (high_lt : high < 0x400) (low_lt : low < 0x400)
    (value : c.toNat = 0x10000 + high * 0x400 + low) (rest : List Nat) :
    ofCodes ((0xD800 + high) :: (0xDC00 + low) :: rest) = (ofCodes rest).map (c :: ·) := by
  have isHigh : 0xD800 ≤ 0xD800 + high ∧ 0xD800 + high < 0xDC00 := by omega
  have isLow : 0xDC00 ≤ 0xDC00 + low ∧ 0xDC00 + low < 0xE000 := by omega
  rw [ofCodes.eq_def]
  simp only [if_pos isHigh, if_pos isLow, Nat.add_sub_cancel_left, ← value, Char.ofNat_toNat]

theorem ofCodes_codes (spells : Spells raw text) : ofCodes (codes raw) = some text := by
  induction spells with
  | nil => rfl
  | @plain c raw _ self _ ih =>
    have first : codes (c :: raw) = c.toNat :: codes raw := by simp [codes, self.2.1]
    rw [first, ofCodes_char, ih, Option.map_some]
  | escape short _ ih => rw [codes_of_escape short, ofCodes_char, ih, Option.map_some]
  | code code _ ih => rw [codes_of_hexCode code, ofCodes_char, ih, Option.map_some]
  | surrogates code code' high_lt low_lt value _ ih =>
    rw [codes_of_hexCode code, codes_of_hexCode code', ofCodes_surrogates high_lt low_lt value, ih,
      Option.map_some]

theorem unescape?_of_spells (spells : Spells raw text) : unescape? raw = some (String.ofList text) := by
  rw [unescape?, ofCodes_codes spells, Option.map_some]

end Strings

/-! ## Scanning -/

namespace Token

/-- Numbers and strings are spelled as the grammar says. -/
def IsLexeme : Token → Prop
  | number lexeme => Numeral lexeme
  | quoted raw => Quoted raw
  | _ => True

/-- The end of the token shows without what follows it. -/
def IsClosed : Token → Prop
  | null | boolean _ | number _ => False
  | _ => True

/-- Of two tokens, one has to show where the first ends. -/
def Meets (left right : Token) : Prop := left.IsClosed ∨ right.IsClosed

end Token

def IsBlanks (cs : List Char) : Prop := ∀ c ∈ cs, c ∈ [' ', '\t', '\n', '\r']

/-- A sequence of tokens with any blanks before, between and after them. -/
inductive Spelled : List Token → List Char → Prop where
  | nil {blanks} (blank : IsBlanks blanks) : Spelled [] blanks
  | cons {blanks token tokens text} (blank : IsBlanks blanks) (rest : Spelled tokens text) :
      Spelled (token :: tokens) (blanks ++ (token.spell ++ text))

/-- A text that goes on neither with a number nor with a word. -/
structure IsApart (text : List Char) : Prop where
  number : Stops isNumberChar text
  word : Stops Char.isAlpha text

section Scanning

variable {token : Token} {tokens : List Token} {text blanks cs raw : List Char} {c : Char}

theorem isBlank_iff : isBlank c = true ↔ c ∈ [' ', '\t', '\n', '\r'] := by
  simp [isBlank, or_assoc]

theorem isApart_of_isBlank (blank : isBlank c = true) : isNumberChar c = false ∧ c.isAlpha = false := by
  simp only [isBlank_iff, List.mem_cons, List.not_mem_nil, or_false] at blank
  obtain rfl | rfl | rfl | rfl := blank <;> exact ⟨rfl, rfl⟩

theorem scan_blanks (blank : IsBlanks blanks) (text : List Char) :
    Token.scan (blanks ++ text) = Token.scan text := by
  induction blanks with
  | nil => rfl
  | cons c blanks ih =>
    rw [List.cons_append, Token.scan, if_pos (isBlank_iff.mpr (blank c List.mem_cons_self))]
    exact ih fun d later => blank d (List.mem_cons_of_mem c later)

theorem scan_quoted (quoted : Quoted raw) (text : List Char) :
    Token.scan ('"' :: (raw ++ '"' :: text)) = (Token.scan text).map (.quoted raw :: ·) := by
  have found := splitQuoted_of_quoted quoted text
  rw [Token.scan, if_neg (by decide), if_pos rfl]
  split
  next found' =>
    rw [found] at found'
    cases found'
    rfl
  next missing =>
    rw [found] at missing
    cases missing

theorem scan_number (numeral : Numeral cs) (stops : Stops isNumberChar text) :
    Token.scan (cs ++ text) = (Token.scan text).map (.number cs :: ·) := by
  have accepted := numeral.isNumber
  obtain ⟨c, rest, rfl, first, parts⟩ := numeral.exists_cons
  have front := takeWhile_of_stops parts stops
  have back := dropWhile_of_stops parts stops
  have notBlank : isBlank c ≠ true := by
    intro blank
    rw [(isApart_of_isBlank blank).1] at first
    cases first
  have notQuote : c ≠ '"' := by rintro rfl; cases first
  rw [List.cons_append, Token.scan]
  simp [notBlank, notQuote, first, front, back, accepted]

theorem scan_word {word : List Char} (found : word? (c :: word) = some token)
    (letters : (c :: word).all Char.isAlpha = true) (begins : isNumberChar c = false)
    (stops : Stops Char.isAlpha text) :
    Token.scan (c :: (word ++ text)) = (Token.scan text).map (token :: ·) := by
  obtain ⟨first, later⟩ := List.forall_mem_cons.mp (List.all_eq_true.mp letters)
  have front := takeWhile_of_stops later stops
  have back := dropWhile_of_stops later stops
  have notBlank : isBlank c ≠ true := by
    intro blank
    rw [(isApart_of_isBlank blank).2] at first
    cases first
  have notQuote : c ≠ '"' := by rintro rfl; cases first
  rw [Token.scan]
  simp [notBlank, notQuote, begins, first, front, back, found]

theorem scan_punctuation (found : punctuation? c = some token)
    (begins : isBlank c = false ∧ c ≠ '"' ∧ isNumberChar c = false ∧ c.isAlpha = false) (text : List Char) :
    Token.scan (c :: text) = (Token.scan text).map (token :: ·) := by
  obtain ⟨notBlank, notQuote, notNumber, notWord⟩ := begins
  rw [Token.scan]
  simp [notBlank, notQuote, notNumber, notWord, found]

/-- A token is scanned off the front of a text that can not be read as more of it. -/
theorem scan_spell (lexeme : token.IsLexeme) (ends : token.IsClosed ∨ IsApart text) :
    Token.scan (token.spell ++ text) = (Token.scan text).map (token :: ·) := by
  cases token with
  | openBrace | closeBrace | openBracket | closeBracket | colon | comma =>
    exact scan_punctuation rfl (by decide) text
  | quoted raw =>
    have spelled : Token.spell (.quoted raw) ++ text = '"' :: (raw ++ '"' :: text) := by simp [Token.spell]
    rw [spelled, scan_quoted lexeme]
  | number cs =>
    obtain closed | apart := ends
    · cases closed
    · exact scan_number lexeme apart.number
  | null =>
    obtain closed | apart := ends
    · cases closed
    · exact scan_word rfl rfl rfl apart.word
  | boolean value =>
    obtain closed | apart := ends
    · cases closed
    · cases value <;> exact scan_word rfl rfl rfl apart.word

theorem isApart_nil : IsApart [] where
  number := by simp [Stops]
  word := by simp [Stops]

theorem IsBlanks.isApart (blank : IsBlanks blanks) (behind : IsApart text) : IsApart (blanks ++ text) := by
  cases blanks with
  | nil => exact behind
  | cons c blanks =>
    have first := isApart_of_isBlank (isBlank_iff.mpr (blank c List.mem_cons_self))
    exact ⟨by rintro c ⟨⟩; exact first.1, by rintro c ⟨⟩; exact first.2⟩

theorem Token.IsClosed.isApart (closed : token.IsClosed) (text : List Char) :
    IsApart (token.spell ++ text) := by
  cases token with
  | null | boolean | number => cases closed
  | _ => exact ⟨by rintro c ⟨⟩; rfl, by rintro c ⟨⟩; rfl⟩

/-- Scanning finds the tokens again, with whatever blanks they were spelled. -/
theorem scan_of_spelled (spelled : Spelled tokens text) (lexemes : ∀ token ∈ tokens, token.IsLexeme)
    (meets : tokens.IsChain Token.Meets) : Token.scan text = some tokens := by
  induction spelled with
  | @nil blanks blank =>
    have empty := scan_blanks blank []
    rwa [List.append_nil, Token.scan] at empty
  | @cons blanks token tokens text blank rest ih =>
    have ends : token.IsClosed ∨ IsApart text := by
      cases rest with
      | nil blank' =>
        have apart := blank'.isApart isApart_nil
        rw [List.append_nil] at apart
        exact .inr apart
      | cons blank' =>
        rcases (List.isChain_cons_cons.mp meets).1 with left | right
        · exact .inl left
        · exact .inr (blank'.isApart (right.isApart _))
    have read := ih (fun token later => lexemes token (List.mem_cons_of_mem _ later)) meets.tail
    rw [scan_blanks blank, scan_spell (lexemes token List.mem_cons_self) ends, read, Option.map_some]

end Scanning

end CardLink.Json
