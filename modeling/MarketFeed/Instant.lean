import MarketFeed.Span

/-!
# Instants

Points of time in nanoseconds since 1970, from the first to the last one that can be represented,
and how they are written.
-/

namespace MarketFeed

/-- The start of the year -262143. -/
def earliestNanos : Int := -8334601228800 * nanosPerSecond

/-- The end of the year 262142. -/
def latestNanos : Int := 8210266876799 * nanosPerSecond + 999999999

structure Instant where
  nanos : Int
  earliest_le : earliestNanos ≤ nanos
  le_latest : nanos ≤ latestNanos
  deriving DecidableEq, Repr

namespace Instant

def earliest : Instant := ⟨earliestNanos, by decide, by decide⟩

def latest : Instant := ⟨latestNanos, by decide, by decide⟩

def clamp (n : Int) : Instant :=
  if h₁ : n < earliestNanos then earliest
  else if h₂ : latestNanos < n then latest
  else ⟨n, by omega, by omega⟩

def add? (t : Instant) (span : Span) : Option Instant :=
  if h : t.nanos + span.nanos ≤ latestNanos then
    some ⟨t.nanos + span.nanos, by have := t.earliest_le; omega, h⟩
  else none

instance : LE Instant := ⟨fun s t => s.nanos ≤ t.nanos⟩
instance (s t : Instant) : Decidable (s ≤ t) := inferInstanceAs (Decidable (s.nanos ≤ t.nanos))

def millis (t : Instant) : Int := t.nanos.fdiv nanosPerMilli

/-! ## Text -/

/-- Year, month and day of a number of days since 1970. Years are counted from March, in cycles of
400 years. -/
def civil (days : Int) : Int × Nat × Nat :=
  let shifted := days + 719468
  let era := shifted.fdiv 146097
  let day := (shifted.fmod 146097).toNat
  let year := (day - day / 1460 + day / 36524 - day / 146096) / 365
  let dayOfYear := day - (365 * year + year / 4 - year / 100)
  let month := (5 * dayOfYear + 2) / 153
  let dayOfMonth := dayOfYear - (153 * month + 2) / 5 + 1
  let january := 10 ≤ month
  (era * 400 + year + (if january then 1 else 0),
    if january then month - 9 else month + 3, dayOfMonth)

def padded (width n : Nat) : String :=
  let digits := Nat.repr n
  "".pushn '0' (width - digits.length) ++ digits

/-- Four digits, or a sign and at least four digits outside the years 0 to 9999. -/
def yearText (year : Int) : String :=
  if 0 ≤ year ∧ year ≤ 9999 then padded 4 year.natAbs
  else (if year < 0 then "-" else "+") ++ padded 4 year.natAbs

/-- The fraction of a second in as few of 0, 3, 6 and 9 digits as it takes. -/
def fractionText (nanos : Nat) : String :=
  if nanos = 0 then ""
  else if nanos % 1000000 = 0 then "." ++ padded 3 (nanos / 1000000)
  else if nanos % 1000 = 0 then "." ++ padded 6 (nanos / 1000)
  else "." ++ padded 9 nanos

def render (t : Instant) : String :=
  let seconds := t.nanos.fdiv nanosPerSecond
  let (year, month, day) := civil (seconds.fdiv 86400)
  let time := (seconds.fmod 86400).toNat
  yearText year ++ "-" ++ padded 2 month ++ "-" ++ padded 2 day ++ "T" ++
    padded 2 (time / 3600) ++ ":" ++ padded 2 (time / 60 % 60) ++ ":" ++ padded 2 (time % 60) ++
    fractionText (t.nanos.fmod nanosPerSecond).toNat ++ "Z"

end Instant

end MarketFeed
