import MarketFeed.Duration

/-!
# Spans

Lengths of time by which instants can be moved. They end long before durations do.
-/

namespace MarketFeed

/-- The longest span, `2 ^ 63 - 1` milliseconds, in nanoseconds. -/
def longestSpanNanos : Nat := ((1 <<< 63) - 1) * nanosPerMilli

structure Span where
  nanos : Nat
  le_longest : nanos ≤ longestSpanNanos
  deriving DecidableEq, Repr

namespace Span

def longest : Span := ⟨longestSpanNanos, Nat.le_refl _⟩

def ofDuration? (d : Duration) : Option Span :=
  if h : d.nanos ≤ longestSpanNanos then some ⟨d.nanos, h⟩ else none

/-- The span that is as long as a duration, or else the longest. -/
def ofDuration (d : Duration) : Span := (ofDuration? d).getD longest

end Span

end MarketFeed
