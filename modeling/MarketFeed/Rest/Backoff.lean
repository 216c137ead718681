import MarketFeed.NextAttempt
import MarketFeed.Settings

/-!
# Delays before retries

The first retry comes after a fixed delay; each further delay is twice the one before, up to a
ceiling. The number of retries is limited.
-/

namespace MarketFeed

structure Backoff where
  delay : Duration
  ceiling : Duration
  left : Nat
  deriving DecidableEq, Repr

namespace Backoff

def ofSettings (s : HttpSettings) : Backoff :=
  { delay := s.initialBackoff, ceiling := s.maxBackoff, left := s.maxRetries }

/-- Twice the delay, or the ceiling if that is less; nothing if no duration can hold it. -/
def doubled? (b : Backoff) : Option Duration :=
  Duration.ofSecondsFloat? ((b.delay.toSeconds * .ofNat 2).min b.ceiling.toSeconds)

/-- A retry after which `left` are left. The delay before the one that would follow is computed at
once, so an overflow shows one retry early. -/
def retry (b : Backoff) (left : Nat) : Option Duration → NextAttempt × Backoff
  | some following => (.after b.delay, { b with delay := following, left })
  | none => (.outOfRange, { b with left })

def next (b : Backoff) : NextAttempt × Backoff :=
  match b.left with
  | 0 => (.exhausted, b)
  | left + 1 => b.retry left b.doubled?

theorem left_retry (b : Backoff) (left : Nat) (following : Option Duration) :
    (b.retry left following).2.left = left := by
  cases following <;> rfl

theorem left_next (b : Backoff) : b.next.2.left = b.left - 1 := by
  unfold next
  split <;> rename_i h
  · simp [h]
  · simp [left_retry, h]

theorem next_of_left_eq_zero {b : Backoff} (h : b.left = 0) : b.next = (.exhausted, b) := by
  unfold next
  split <;> simp_all

theorem left_next_lt {b c : Backoff} {d : Duration} (h : b.next = (.after d, c)) :
    c.left < b.left := by
  have hc : c.left = b.left - 1 := by rw [← left_next, h]
  have : b.left ≠ 0 := fun h0 => by simp [next_of_left_eq_zero h0] at h
  omega

end Backoff

end MarketFeed
