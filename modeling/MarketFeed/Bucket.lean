import MarketFeed.Timer

/-!
# Token buckets

A bucket starts full, refills continuously and never holds more than its capacity. A token is
taken if there is one; otherwise the bucket says how long to wait for it. The arithmetic is a
parameter, so that the same bucket can be read over doubles and over exact numbers.
-/

namespace MarketFeed

class TokenNumber (α : Type) where
  ofNat : Nat → α
  ofDuration : Duration → α
  /-- `x * y + z` -/
  mulAdd : α → α → α → α
  sub : α → α → α
  div : α → α → α
  min : α → α → α
  le : α → α → Bool
  /-- Whether a refill rate limits at all. -/
  isRate : α → Bool
  toDuration? : α → Option Duration

instance : TokenNumber Binary64 where
  ofNat := .ofNat
  ofDuration := Duration.toSeconds
  mulAdd := .fma
  sub := .sub
  div := .div
  min := .min
  le := Binary64.le
  isRate r := Binary64.zero.lt r && r.isFinite
  toDuration? := Duration.ofSecondsFloat?

instance : TokenNumber Rat where
  ofNat n := n
  ofDuration d := (d.nanos : Rat) / nanosPerSecond
  mulAdd x y z := x * y + z
  sub x y := x - y
  div x y := x / y
  min x y := if x ≤ y then x else y
  le x y := x ≤ y
  isRate r := 0 < r
  toDuration? x :=
    if x < 0 then none
    else Duration.ofNanos? (roundHalfEven (x.num.toNat * nanosPerSecond) x.den)

structure Bucket (α : Type) where
  capacity : α
  rate : α
  tokens : α
  /-- The time at which `tokens` was right, in nanoseconds. -/
  refilledAt : Nat

namespace Bucket

open TokenNumber

variable {α : Type} [TokenNumber α]

/-- A full bucket, of one token at least. -/
def full (capacity : Nat) (rate : α) (now : Nat) : Bucket α :=
  let capacity := ofNat (capacity.max 1)
  { capacity, rate, tokens := capacity, refilledAt := now }

def isEnabled (b : Bucket α) : Bool := isRate b.rate

def refill (b : Bucket α) (now : Nat) : Bucket α :=
  let elapsed := ofDuration (α := α) (.clamp (now - b.refilledAt))
  let tokens := if b.isEnabled then TokenNumber.min (mulAdd elapsed b.rate b.tokens) b.capacity
    else b.tokens
  { b with tokens, refilledAt := now }

def reserve (b : Bucket α) (now : Nat) : Option Duration × Bucket α :=
  if !b.isEnabled then (none, b)
  else
    let b := b.refill now
    let one := ofNat (α := α) 1
    if le one b.tokens then (none, { b with tokens := sub b.tokens one })
    else (some ((toDuration? (div (sub one b.tokens) b.rate)).getD .longest), b)

def tryAcquire (b : Bucket α) (now : Nat) : Bool × Bucket α :=
  let (wait, b) := b.reserve now
  (wait.isNone, b)

def available (b : Bucket α) (now : Nat) : α × Bucket α :=
  let b := b.refill now
  (b.tokens, b)

/-- Waits for a token and takes it; gives the time at which that is done. At most `rounds` waits
are made. -/
def acquire (b : Bucket α) (now : Nat) : Nat → Option Nat × Bucket α
  | 0 => (none, b)
  | rounds + 1 =>
    match b.reserve now with
    | (none, b) => (some now, b)
    | (some wait, b) => acquire b (Timer.wake now wait) rounds

end Bucket

end MarketFeed
