import MarketFeed.Binary64

/-!
# Durations

Lengths of time in nanoseconds, below `2 ^ 64` seconds. Conversions from seconds held in a double
round to the nearest nanosecond, ties to even.
-/

namespace MarketFeed

def nanosPerSecond : Nat := 1000000000

def nanosPerMilli : Nat := 1000000

def durationLimit : Nat := nanosPerSecond <<< 64

structure Duration where
  nanos : Nat
  nanos_lt : nanos < durationLimit
  deriving DecidableEq, Repr

namespace Duration

theorem ext {d e : Duration} (h : d.nanos = e.nanos) : d = e := by
  cases d; cases e; simp_all

instance : LE Duration := ⟨fun d e => d.nanos ≤ e.nanos⟩
instance : LT Duration := ⟨fun d e => d.nanos < e.nanos⟩
instance (d e : Duration) : Decidable (d ≤ e) := inferInstanceAs (Decidable (d.nanos ≤ e.nanos))
instance (d e : Duration) : Decidable (d < e) := inferInstanceAs (Decidable (d.nanos < e.nanos))

def ofNanos? (n : Nat) : Option Duration :=
  if h : n < durationLimit then some ⟨n, h⟩ else none

def clamp (n : Nat) : Duration :=
  ⟨Nat.min n (durationLimit - 1),
    Nat.lt_of_le_of_lt (Nat.min_le_right _ _) (by decide)⟩

def zero : Duration := ⟨0, by decide⟩

instance : Inhabited Duration := ⟨zero⟩

def longest : Duration := ⟨durationLimit - 1, by decide⟩

def ofSeconds (s : Nat) : Duration := clamp (s * nanosPerSecond)

def ofMillis (ms : Nat) : Duration := clamp (ms * nanosPerMilli)

def ofParts (seconds nanos : Nat) : Duration := clamp (seconds * nanosPerSecond + nanos)

def seconds (d : Duration) : Nat := d.nanos / nanosPerSecond

def subsecond (d : Duration) : Nat := d.nanos % nanosPerSecond

def millis (d : Duration) : Nat := d.nanos / nanosPerMilli

def isZero (d : Duration) : Bool := d.nanos = 0

def max (d e : Duration) : Duration := if d ≤ e then e else d

theorem nanos_clamp {n : Nat} (h : n < durationLimit) : (clamp n).nanos = n := by
  have : n ≤ durationLimit - 1 := Nat.le_sub_one_of_lt h
  simp [clamp, Nat.min_eq_left this]

/-! ## Seconds in doubles -/

/-- The seconds of a duration as a double: the whole seconds and the fraction are each rounded
before they are added. -/
def toSeconds (d : Duration) : Binary64 :=
  .ofNat d.seconds + .ofNat d.subsecond / .ofNat nanosPerSecond

/-- The duration nearest to a number of seconds; negative, too large and undefined numbers have
none. -/
def ofSecondsFloat? : Binary64 → Option Duration
  | .finite negative units =>
    if negative && units ≠ 0 then none
    else ofNanos? (roundHalfEven (units * nanosPerSecond) Binary64.unitsPerOne)
  | _ => none

end Duration

end MarketFeed
