import MarketFeed.NextAttempt
import MarketFeed.Settings

/-!
# Delays between attempts to reconnect

The delay before attempt `n` is the first delay times a power of the multiplier, up to a ceiling,
and is then spread at random by a fraction of itself.
-/

namespace MarketFeed

structure Schedule where
  initialDelay : Duration := .ofSeconds 1
  /-- The greatest delay, before it is spread. -/
  maxDelay : Duration := .ofSeconds 300
  multiplier : Binary64 := .ofNat 2
  /-- The fraction of itself by which a delay is spread to either side. -/
  jitter : Binary64 := .ofRatio false 1 10
  /-- How many attempts there are; zero sets no limit. -/
  maxAttempts : Nat := 0
  deriving DecidableEq, Repr, Inhabited

namespace Schedule

/-- The schedule of a feed: it starts with the configured delay, and the ceiling is never below
that. -/
def ofSettings (s : StreamSettings) : Schedule :=
  { initialDelay := s.reconnectDelay
    maxDelay := (Duration.ofSeconds 300).max s.reconnectDelay
    maxAttempts := s.maxReconnectAttempts }

def maxPower : Nat := (1 <<< 31) - 1

def uncapped (s : Schedule) (n : Nat) : Binary64 :=
  s.initialDelay.toSeconds * s.multiplier.powNat (Nat.min (n - 1) maxPower)

/-- The delay before attempt `n`; nothing if no duration can hold it. -/
def baseDelay? (s : Schedule) (n : Nat) : Option Duration :=
  let seconds := s.uncapped n
  if seconds.isFinite && Binary64.zero.le seconds then
    Duration.ofSecondsFloat? (seconds.min s.maxDelay.toSeconds)
  else some s.maxDelay

def leastSpread : Binary64 := .ofRatio false 1 1000

def spreads (s : Schedule) (delay : Duration) : Bool :=
  !(s.jitter.le .zero) && !delay.isZero

/-- A delay spread by a fraction between `-jitter` and `jitter`; nothing if there is no such
fraction or no duration can hold the result. -/
def spread? (s : Schedule) (delay : Duration) (fraction : Binary64) : Option Duration :=
  if !s.spreads delay then some delay
  else if !(s.jitter + s.jitter).isFinite then none
  else Duration.ofSecondsFloat?
    (Binary64.max (delay.toSeconds * (.one + fraction)) leastSpread)

end Schedule

structure Attempts where
  schedule : Schedule
  made : Nat := 0
  deriving DecidableEq, Repr

namespace Attempts

def remain (a : Attempts) : Bool :=
  a.schedule.maxAttempts = 0 || a.made < a.schedule.maxAttempts

def next (a : Attempts) (fraction : Binary64) : NextAttempt × Attempts :=
  if !a.remain then (.exhausted, a)
  else
    let a := { a with made := a.made + 1 }
    match (a.schedule.baseDelay? a.made).bind fun d => a.schedule.spread? d fraction with
    | some d => (.after d, a)
    | none => (.outOfRange, a)

def reset (a : Attempts) : Attempts := { a with made := 0 }

end Attempts

inductive ReconnectFailure where
  | exceeded (attempts : Nat) (last : FeedError)
  | cancelled
  deriving DecidableEq, Repr

def ReconnectFailure.message : ReconnectFailure → String
  | exceeded attempts last =>
    "maximum reconnection attempts (" ++ Nat.repr attempts ++ ") exceeded: " ++ last.message
  | cancelled => "reconnection cancelled"

end MarketFeed
