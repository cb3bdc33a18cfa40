/-!
# Decimal text

Natural numbers as decimal digits, the reading of such digits, and fixed-point numbers whose
trailing zeros are dropped. A number is what is read from its own digits (`value?_digits`).
-/

namespace CardLink.Decimal

/-! ## Whole numbers -/

/-- The decimal digits of a number, most significant first and without leading zeros. -/
def digits (n : Nat) : List Char :=
  if n < 10 then [Nat.digitChar n] else digits (n / 10) ++ [Nat.digitChar (n % 10)]

def digit? (c : Char) : Option Nat :=
  if '0' ≤ c ∧ c ≤ '9' then some (c.toNat - '0'.toNat) else none

def continueFrom (value : Nat) : List Char → Option Nat
  | [] => some value
  | c :: rest => (digit? c).bind fun d => continueFrom (10 * value + d) rest

/-- The number that a non-empty string of digits stands for. Signs, fractions and exponents are not
    digits. -/
def value? : List Char → Option Nat
  | [] => none
  | c :: rest => continueFrom 0 (c :: rest)

/-! ## Digits read back -/

theorem digits_ne_nil (n : Nat) : digits n ≠ [] := by
  rw [digits]
  split <;> simp

theorem digit?_digitChar {d : Nat} (small : d < 10) : digit? (Nat.digitChar d) = some d := by
  have all : ∀ d < 10, digit? (Nat.digitChar d) = some d := by decide
  exact all d small

theorem isDigit_digitChar {d : Nat} (small : d < 10) : (Nat.digitChar d).isDigit = true := by
  have all : ∀ d < 10, (Nat.digitChar d).isDigit = true := by decide
  exact all d small

theorem isDigit_of_mem_digits {n : Nat} {c : Char} (member : c ∈ digits n) : c.isDigit = true := by
  induction n using digits.induct with
  | case1 n small =>
    rw [digits, if_pos small, List.mem_singleton] at member
    exact member ▸ isDigit_digitChar small
  | case2 n large ih =>
    rw [digits, if_neg large, List.mem_append, List.mem_singleton] at member
    rcases member with earlier | rfl
    · exact ih earlier
    · exact isDigit_digitChar (Nat.mod_lt n (by decide))

/-- No zero leads the digits of a positive number. -/
theorem digits_of_pos {n : Nat} (pos : 0 < n) : ∃ c rest, digits n = c :: rest ∧ c ≠ '0' := by
  induction n using digits.induct with
  | case1 n small =>
    have all : ∀ d < 10, 0 < d → Nat.digitChar d ≠ '0' := by decide
    exact ⟨_, [], by rw [digits, if_pos small], all n small pos⟩
  | case2 n large ih =>
    obtain ⟨c, rest, shape, nonzero⟩ := ih (by omega)
    exact ⟨c, rest ++ [Nat.digitChar (n % 10)], by rw [digits, if_neg large, shape, List.cons_append],
      nonzero⟩

theorem continueFrom_append (value : Nat) (front back : List Char) : continueFrom value (front ++ back) =
    (continueFrom value front).bind fun value => continueFrom value back := by
  induction front generalizing value with
  | nil => rfl
  | cons c front ih => simp only [List.cons_append, continueFrom, ih, Option.bind_assoc]

theorem continueFrom_digits (n : Nat) : continueFrom 0 (digits n) = some n := by
  induction n using digits.induct with
  | case1 n small => simp [digits, small, continueFrom, digit?_digitChar]
  | case2 n large ih =>
    have last : n % 10 < 10 := Nat.mod_lt n (by decide)
    rw [digits, if_neg large, continueFrom_append, ih]
    simp [continueFrom, digit?_digitChar last, Nat.div_add_mod]

/-- A number is read back from its digits. -/
theorem value?_digits (n : Nat) : value? (digits n) = some n := by
  have start := continueFrom_digits n
  cases shape : digits n with
  | nil => exact absurd shape (digits_ne_nil n)
  | cons c rest => rwa [shape] at start

/-! ## Fixed-point numbers -/

/-- The digits of `n`, filled up with zeros on the left to `places` characters. -/
def padded (places n : Nat) : List Char :=
  List.replicate (places - (digits n).length) '0' ++ digits n

/-- The number `whole + fraction / 10 ^ places` in the fewest characters: trailing zeros are
    dropped, and so is the point if nothing follows it. -/
def fixedPoint (whole fraction places : Nat) : String :=
  let kept := ((padded places fraction).reverse.dropWhile (· = '0')).reverse
  String.ofList (digits whole ++ if kept.isEmpty then [] else '.' :: kept)

end CardLink.Decimal
