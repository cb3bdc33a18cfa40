import CardLink.Text.Decimal

/-!
# Durations

A span of time in whole nanoseconds, below `2 ^ 64` seconds. Arithmetic saturates at the longest
duration. A duration reads as a pair of seconds and nanoseconds, and has a text in the largest unit
that does not need a leading zero.
-/

namespace CardLink

abbrev Duration.perSecond : Nat := 1000000000

/-- The nanoseconds of `2 ^ 64` seconds, the least number that is too much for a duration. -/
abbrev Duration.limit : Nat := UInt64.size * Duration.perSecond

/-- A span of time, a whole number of nanoseconds. -/
structure Duration where
  nanos : Nat
  nanos_lt : nanos < Duration.limit
deriving DecidableEq

namespace Duration

theorem limit_eq : limit = 18446744073709551616000000000 := rfl

/-! ## Building durations -/

/-- The duration of `nanos` nanoseconds, or the longest one if that is shorter. -/
def clamp (nanos : Nat) : Duration :=
  ⟨min nanos (limit - 1), by rw [limit_eq]; omega⟩

/-- The duration of so many seconds and nanoseconds, if it is short enough to be one. -/
def ofParts? (seconds nanos : Nat) : Option Duration :=
  if h : seconds * perSecond + nanos < limit then some ⟨_, h⟩ else none

def ofMillis (millis : Nat) : Duration := clamp (millis * 1000000)

def ofMicros (micros : Nat) : Duration := clamp (micros * 1000)

instance : Inhabited Duration := ⟨clamp 0⟩

/-! ## Reading durations -/

def seconds (d : Duration) : Nat := d.nanos / perSecond

def subsecNanos (d : Duration) : Nat := d.nanos % perSecond

theorem nanos_eq (d : Duration) : d.seconds * perSecond + d.subsecNanos = d.nanos :=
  Nat.div_add_mod' d.nanos perSecond

theorem seconds_lt (d : Duration) : d.seconds < UInt64.size :=
  Nat.div_lt_of_lt_mul (by simpa only [Nat.mul_comm] using d.nanos_lt)

theorem subsecNanos_lt (d : Duration) : d.subsecNanos < perSecond := Nat.mod_lt d.nanos (by decide)

theorem ofParts?_parts (d : Duration) : ofParts? d.seconds d.subsecNanos = some d := by
  have short : d.seconds * perSecond + d.subsecNanos < limit := by
    rw [nanos_eq]
    exact d.nanos_lt
  rw [ofParts?, dif_pos short]
  simp only [nanos_eq]

def isZero (d : Duration) : Bool := d.nanos == 0

/-- `factor` times a duration, or the longest duration if that is shorter. -/
def scale (d : Duration) (factor : Nat) : Duration := clamp (d.nanos * factor)

theorem nanos_scale (d : Duration) (factor : Nat) :
    (d.scale factor).nanos = min (d.nanos * factor) (limit - 1) := rfl

@[simp] theorem scale_one (d : Duration) : d.scale 1 = d := by
  have fits : d.nanos ≤ limit - 1 := Nat.le_sub_one_of_lt d.nanos_lt
  simp [scale, clamp, fits]

/-- A multiple takes no time only if there is nothing to multiply. -/
theorem isZero_scale (d : Duration) {factor : Nat} (pos : 0 < factor) : (d.scale factor).isZero = d.isZero := by
  have limit := limit_eq
  have product_iff : d.nanos * factor = 0 ↔ d.nanos = 0 := by
    rw [Nat.mul_eq_zero]
    omega
  have zero_iff : (d.scale factor).nanos = 0 ↔ d.nanos = 0 := by
    rw [nanos_scale, ← product_iff]
    omega
  rw [Bool.eq_iff_iff]
  simpa [isZero] using zero_iff

/-- The exact text of a duration: in seconds if it has any, else in milliseconds, microseconds or
    nanoseconds, the largest unit of which it holds at least one. -/
def text (d : Duration) : String :=
  let rest := d.subsecNanos
  if d.seconds > 0 then Decimal.fixedPoint d.seconds rest 9 ++ "s"
  else if rest ≥ 1000000 then Decimal.fixedPoint (rest / 1000000) (rest % 1000000) 6 ++ "ms"
  else if rest ≥ 1000 then Decimal.fixedPoint (rest / 1000) (rest % 1000) 3 ++ "\u00b5s"
  else Decimal.fixedPoint rest 0 0 ++ "ns"

/-! ## Sampling -/

/-- A duration in seconds as a binary floating-point number: seconds and fraction are rounded on
    their own, and then added. -/
def toFloat (d : Duration) : Float :=
  d.seconds.toUInt64.toFloat + d.subsecNanos.toUInt64.toFloat / 1e9

/-- How many intervals of `interval` a timeout spans, rounded to the nearest whole number and at
    most `2 ^ 32 - 1`. An empty interval gives none. -/
def intervals (timeout interval : Duration) : Nat :=
  if interval.isZero then 0
  else (timeout.toFloat / interval.toFloat + 0.5).toUInt32.toNat

end Duration

end CardLink
