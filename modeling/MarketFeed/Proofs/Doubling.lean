import Mathlib
import MarketFeed.Proofs.Seconds
import MarketFeed.Rest.Backoff

/-!
# Doubling

The delay before a retry is doubled in seconds, as doubles, which loses nothing but what the seconds
and the nanoseconds lose. Durations below a day are so short that the result is exact.
-/

namespace MarketFeed

namespace Binary64

/-! ## Products -/

theorem IsMagnitude.mul_two_pow {u : Nat} (h : IsMagnitude u) (k : Nat) :
    IsMagnitude (u * 2 ^ k) := by
  obtain ⟨c, j, small, rfl⟩ := h
  exact ⟨c, j + k, small, by rw [Nat.pow_add, Nat.mul_assoc]⟩

theorem IsMagnitude.min {u v : Nat} (hu : IsMagnitude u) (hv : IsMagnitude v) :
    IsMagnitude (Nat.min u v) := by
  obtain le | le := Nat.le_total u v
  · have least : Nat.min u v = u := Nat.min_eq_left le
    rwa [least]
  · have least : Nat.min u v = v := Nat.min_eq_right le
    rwa [least]

/-- A number that is a double already, or would be one if it were not too large. -/
theorem IsMagnitude.ofUnits_eq {u d : Nat} (h : IsMagnitude u) (hd : 0 < d) :
    ofUnits false (u * d) d = if u ≤ maxUnits then .finite false u else .infinite false := by
  unfold ofUnits
  rw [h.roundUnits_eq hd]

theorem finite_mul_finite (u v : Nat) :
    (finite false u).mul (finite false v) = ofUnits false (u * v) unitsPerOne := rfl

end Binary64

open Binary64

namespace Duration

/-! ## Short durations -/

def day : Duration := .ofSeconds 86400

end Duration

def Duration.twiceUpTo (ceiling d : Duration) : Duration :=
  ⟨Nat.min (2 * d.nanos) ceiling.nanos, Nat.lt_of_le_of_lt (Nat.min_le_right ..) ceiling.nanos_lt⟩

namespace Backoff

open Duration

/-! ## Doubled delays -/

theorem isMagnitude_twice (d : Duration) : IsMagnitude (d.units * 2) :=
  d.isMagnitude_units.mul_two_pow 1

theorem doubled?_finite (b : Backoff) : b.doubled? =
    ofSecondsFloat? (.finite false (Nat.min (b.delay.units * 2) b.ceiling.units)) := by
  have fits : b.delay.units * 2 ≤ maxUnits := by
    have le := b.delay.units_le
    have large := mul_unitsPerOne_le_maxUnits (c := 2 ^ 65) (by decide)
    omega
  have product : finite false b.delay.units * Binary64.ofNat 2 = .finite false (b.delay.units * 2) := by
    rw [ofNat_eq (by decide)]
    show (finite false b.delay.units).mul (finite false (2 * unitsPerOne)) = _
    rw [finite_mul_finite, ← Nat.mul_assoc, (isMagnitude_twice _).ofUnits_eq unitsPerOne_pos,
      if_pos fits]
  unfold doubled?
  rw [toSeconds_eq_units, toSeconds_eq_units, product, min_finite]

theorem next_of_none {b : Backoff} (left : b.left ≠ 0) (h : b.doubled? = none) :
    b.next = (.outOfRange, { b with left := b.left - 1 }) := by
  unfold next
  split
  · contradiction
  · rename_i hl
    rw [h, hl]
    rfl

theorem next_of_some {b : Backoff} {following : Duration} (left : b.left ≠ 0)
    (h : b.doubled? = some following) :
    b.next = (.after b.delay, { b with delay := following, left := b.left - 1 }) := by
  unfold next
  split
  · contradiction
  · rename_i hl
    rw [h, hl]
    rfl

end Backoff

end MarketFeed
