import MarketFeed.Duration

/-!
# Timers

Times are nanoseconds on a clock that only moves forward. A timer ticks in whole milliseconds, so
a wait takes as many of them as it takes to reach the first tick at or after its end.
-/

namespace MarketFeed.Timer

def tickAfter (t : Nat) : Nat := (t + (nanosPerMilli - 1)) / nanosPerMilli

def tickBefore (t : Nat) : Nat := t / nanosPerMilli

def wake (t : Nat) (d : Duration) : Nat :=
  t + (tickAfter (t + d.nanos) - tickBefore t) * nanosPerMilli

theorem le_wake (t : Nat) (d : Duration) : t ≤ wake t d := Nat.le_add_right _ _

theorem add_le_wake (t : Nat) (d : Duration) : t + d.nanos ≤ wake t d := by
  unfold wake tickAfter tickBefore
  simp only [nanosPerMilli]
  omega

end MarketFeed.Timer
