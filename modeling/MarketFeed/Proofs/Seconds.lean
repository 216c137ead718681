import Mathlib
import MarketFeed.Proofs.Nearest

/-!
# Seconds in doubles

The seconds of a duration as a double, over all durations: they grow with the duration, and reach a
power of two from half a spacing of doubles below it. Back from seconds, a double is out of range
exactly from `2 ^ 64` on.
-/

namespace MarketFeed

theorem roundHalfEven_up {n d c : Nat} (odd : c % 2 = 1) (low : (2 * c + 1) * d ≤ 2 * n)
    (high : n < (c + 1) * d) : roundHalfEven n d = c + 1 := by
  have hd : 0 < d := Nat.pos_of_mul_pos_left (Nat.zero_lt_of_lt high)
  have quotient : n / d = c := by
    apply Nat.div_eq_of_lt_le _ high
    linarith
  have rest : d ≤ 2 * (n % d) := by
    have split := Nat.div_add_mod n d
    rw [quotient, Nat.mul_comm] at split
    linarith
  unfold roundHalfEven
  rw [quotient, if_neg (by omega)]
  split_ifs with h
  · rfl
  · omega
  · rfl

namespace Binary64

/-! ## Powers of two among the doubles -/

theorem isMagnitude_two_pow (k : Nat) : IsMagnitude (2 ^ k) :=
  ⟨1, k, by decide, (Nat.one_mul _).symm⟩

theorem IsMagnitude.add_le {u k : Nat} (h : IsMagnitude u) (less : u < 2 ^ (k + 53)) :
    u + 2 ^ k ≤ 2 ^ (k + 53) := by
  obtain ⟨c, j, small, rfl⟩ := h
  -- Either the double is a multiple of the spacing, or it is finer and lies far below the power.
  by_cases coarse : k ≤ j
  · obtain ⟨i, rfl⟩ := Nat.exists_eq_add_of_le coarse
    have multiple : c * 2 ^ (k + i) = c * 2 ^ i * 2 ^ k := by rw [Nat.pow_add]; ring
    rw [multiple, Nat.pow_add, Nat.mul_comm (2 ^ k)] at less ⊢
    have next : c * 2 ^ i + 1 ≤ 2 ^ 53 := Nat.lt_of_mul_lt_mul_right less
    have := Nat.mul_le_mul_right (2 ^ k) next
    rwa [Nat.succ_mul] at this
  · obtain ⟨i, rfl⟩ := Nat.exists_eq_add_of_lt (Nat.lt_of_not_le coarse)
    have finer : 2 ^ (j + i + 1) = 2 * (2 ^ i * 2 ^ j) := by rw [Nat.pow_succ, Nat.pow_add]; ring
    have below : c * 2 ^ j ≤ 2 ^ 53 * (2 ^ i * 2 ^ j) :=
      Nat.mul_le_mul small.le (Nat.le_mul_of_pos_left _ (Nat.two_pow_pos i))
    rw [Nat.pow_add _ _ 53, finer]
    omega

theorem IsMagnitude.dvd {u k : Nat} (h : IsMagnitude u) (least : 2 ^ (k + 53) ≤ u) :
    2 ^ (k + 1) ∣ u := by
  obtain ⟨c, j, small, rfl⟩ := h
  have exponent : k < j := by
    by_contra le
    apply least.not_gt
    rw [Nat.pow_add, Nat.mul_comm (2 ^ k)]
    exact Nat.mul_lt_mul_of_lt_of_le small (Nat.pow_le_pow_right two_pos (Nat.le_of_not_lt le))
      (Nat.two_pow_pos k)
  exact (Nat.pow_dvd_pow 2 exponent).trans (Nat.dvd_mul_left ..)

/-- A number is rounded to a power of two or beyond from half a spacing below the power on. -/
theorem two_pow_le_roundUnits_iff {n d k : Nat} (hd : 0 < d) :
    2 ^ (k + 54) ≤ roundUnits n d ↔ (2 ^ 54 - 1) * (2 ^ k * d) ≤ n := by
  have power : 2 ^ (k + 54) * d = 2 ^ 54 * (2 ^ k * d) := by rw [Nat.pow_add]; ring
  constructor
  · intro reached
    -- The double before the power is no farther from the number than the power is.
    have below : IsMagnitude ((2 ^ 53 - 1) * 2 ^ (k + 1)) := ⟨_, _, by decide, rfl⟩
    have near := roundUnits_nearest (n := n) hd below
    have gap : (2 ^ 53 - 1) * 2 ^ (k + 1) * d = (2 ^ 54 - 2) * (2 ^ k * d) := by
      rw [Nat.pow_succ]
      ring
    have scaled := Nat.mul_le_mul_right d reached
    rw [gap] at near
    rw [power] at scaled
    omega
  · intro low
    by_cases high : n < 2 ^ 54 * (2 ^ k * d)
    · have magnitude : Nat.log2 (n / d) = k + 53 := by
        have least : 2 ^ (k + 53) ≤ n / d := by
          have half : 2 ^ (k + 53) * d = 2 ^ 53 * (2 ^ k * d) := by rw [Nat.pow_add]; ring
          rw [Nat.le_div_iff_mul_le hd, half]
          omega
        have below : n / d < 2 ^ (k + 54) := by
          rw [Nat.div_lt_iff_lt_mul hd, power]
          exact high
        exact (Nat.log2_eq_iff ((Nat.two_pow_pos _).trans_le least).ne').2 ⟨least, below⟩
      have scale : d * 2 ^ (k + 1) = 2 * (2 ^ k * d) := by rw [Nat.pow_succ]; ring
      have up : roundHalfEven n (d * 2 ^ (k + 1)) = (2 ^ 53 - 1) + 1 := by
        apply roundHalfEven_up (by decide)
        · rw [scale]
          omega
        · rw [scale]
          omega
      unfold roundUnits
      dsimp only
      have shift : k + 53 - 52 = k + 1 := by omega
      have reached : 2 ^ (k + 54) = (2 ^ 53 - 1 + 1) * 2 ^ (k + 1) := by
        rw [Nat.pow_add, Nat.pow_succ]
        ring
      rw [magnitude, Nat.shiftLeft_eq, Nat.shiftLeft_eq, shift, up, reached]
    · apply (isMagnitude_two_pow _).le_roundUnits hd
      rw [power]
      exact Nat.le_of_not_lt high

theorem exists_unitsPerOne_eq {j : Nat} (h : j ≤ 1074) : ∃ k, unitsPerOne = 2 ^ j * 2 ^ k := by
  obtain ⟨u, hu⟩ : ∃ u, u = 1074 := ⟨_, rfl⟩
  rw [← hu] at h
  obtain ⟨k, rfl⟩ := Nat.exists_eq_add_of_le h
  exact ⟨k, (unitsPerOne_eq hu).trans (Nat.pow_add ..)⟩

theorem IsMagnitude.below {u q : Nat} (h : IsMagnitude u) (less : u < 2 ^ q * unitsPerOne) :
    2 ^ 53 * u + 2 ^ q * unitsPerOne ≤ 2 ^ 53 * (2 ^ q * unitsPerOne) := by
  obtain ⟨k, hk⟩ := exists_unitsPerOne_eq (j := 53) (by decide)
  have power : 2 ^ q * unitsPerOne = 2 ^ (q + k + 53) := by
    rw [hk, Nat.pow_add, Nat.pow_add]
    ring
  have split : 2 ^ (q + k + 53) = 2 ^ 53 * 2 ^ (q + k) := by rw [Nat.pow_add, Nat.mul_comm]
  have gap := h.add_le (less.trans_eq power)
  rw [power]
  omega

theorem isMagnitude_mul_unitsPerOne {c : Nat} (h : c ≤ 2 ^ 53) : IsMagnitude (c * unitsPerOne) := by
  obtain ⟨u, hu⟩ : ∃ u, u = 1074 := ⟨_, rfl⟩
  rw [unitsPerOne_eq hu]
  exact isMagnitude_mul_two_pow h u

theorem isMagnitude_two_pow_mul_unitsPerOne (k : Nat) : IsMagnitude (2 ^ k * unitsPerOne) := by
  obtain ⟨u, hu⟩ : ∃ u, u = 1074 := ⟨_, rfl⟩
  rw [unitsPerOne_eq hu, ← Nat.pow_add]
  exact isMagnitude_two_pow _

/-! ## Relative errors -/

theorem roundUnits_relative_error {n d : Nat} (hd : 0 < d) (normal : 2 ^ 52 * d ≤ n) :
    Within (2 ^ 53 * (roundUnits n d * d)) (2 ^ 53 * n) (2 * n) := by
  have positive : n / d ≠ 0 := (Nat.div_pos (by omega) hd).ne'
  obtain ⟨least, below⟩ := (Nat.log2_eq_iff positive).1 rfl
  have large : 52 ≤ Nat.log2 (n / d) :=
    (Nat.le_log2 positive).2 ((Nat.le_div_iff_mul_le hd).2 normal)
  obtain ⟨k, hk⟩ := Nat.exists_eq_add_of_le large
  rw [hk] at least below
  have near := roundUnits_within (k := k) hd (by
    rw [← Nat.div_lt_iff_lt_mul hd]
    apply below.trans_eq
    congr 1
    omega)
  have spacing : 2 ^ 52 * (d * 2 ^ k) ≤ n := by
    rw [Nat.le_div_iff_mul_le hd, Nat.pow_add] at least
    linarith
  unfold Within at near ⊢
  omega

/-! ## Sums -/

theorem ofSum_natCast (n d : Nat) : ofSum false (n : Int) d = ofUnits false n d := by
  unfold ofSum
  split_ifs with none
  · have zero : n = 0 := by omega
    have rounded : roundUnits 0 d = 0 := by simp [roundUnits, roundHalfEven]
    rw [zero, ofUnits, rounded]
    exact (if_pos (Nat.zero_le _)).symm
  · have sign : decide ((n : Int) < 0) = false := decide_eq_false (by omega)
    rw [sign, Int.natAbs_natCast]

theorem finite_add (m n : Nat) : finite false m + finite false n = ofUnits false (m + n) 1 := by
  rw [← ofSum_natCast, Nat.cast_add]
  rfl

end Binary64

open Binary64

namespace Duration

variable {d e : Duration}

/-! ## The seconds of a duration -/

def wholeUnits (d : Duration) : Nat := roundUnits (d.seconds * unitsPerOne) 1

def restUnits (d : Duration) : Nat := roundUnits (d.subsecond * unitsPerOne) nanosPerSecond

/-- The seconds of a duration as a double, in units: whole seconds and rest are rounded first. -/
def units (d : Duration) : Nat := roundUnits (d.wholeUnits + d.restUnits) 1

theorem nanosPerSecond_pos : 0 < nanosPerSecond := by decide

theorem seconds_add_subsecond (d : Duration) :
    d.seconds * nanosPerSecond + d.subsecond = d.nanos := by
  rw [Nat.mul_comm]
  exact Nat.div_add_mod ..

theorem subsecond_lt (d : Duration) : d.subsecond < nanosPerSecond :=
  Nat.mod_lt _ nanosPerSecond_pos

theorem seconds_lt (d : Duration) : d.seconds < 2 ^ 64 := by
  apply Nat.div_lt_of_lt_mul
  exact d.nanos_lt.trans_eq (Nat.shiftLeft_eq ..)

theorem le_seconds_iff {s : Nat} : s ≤ d.seconds ↔ s * nanosPerSecond ≤ d.nanos :=
  Nat.le_div_iff_mul_le nanosPerSecond_pos

theorem isMagnitude_wholeUnits (d : Duration) : IsMagnitude d.wholeUnits :=
  roundUnits_isMagnitude _ Nat.one_pos

theorem isMagnitude_units (d : Duration) : IsMagnitude d.units :=
  roundUnits_isMagnitude _ Nat.one_pos

theorem wholeUnits_le (d : Duration) : d.wholeUnits ≤ 2 ^ 64 * unitsPerOne := by
  apply (isMagnitude_two_pow_mul_unitsPerOne 64).roundUnits_le Nat.one_pos
  rw [Nat.mul_one]
  exact Nat.mul_le_mul_right _ d.seconds_lt.le

theorem wholeUnits_eq (h : d.seconds ≤ 2 ^ 53) : d.wholeUnits = d.seconds * unitsPerOne := by
  have exact := (isMagnitude_mul_unitsPerOne h).roundUnits_eq Nat.one_pos
  rwa [Nat.mul_one] at exact

theorem restUnits_le (d : Duration) :
    2 ^ 30 * d.restUnits ≤ (2 ^ 30 - 1) * unitsPerOne := by
  obtain ⟨k, hk⟩ := exists_unitsPerOne_eq (j := 30) (by decide)
  have magnitude : IsMagnitude ((2 ^ 30 - 1) * 2 ^ k) := ⟨_, _, by decide, rfl⟩
  have below : d.restUnits ≤ (2 ^ 30 - 1) * 2 ^ k := by
    apply magnitude.roundUnits_le nanosPerSecond_pos
    have small := Nat.mul_le_mul_right (2 ^ k) (Nat.le_of_lt_succ d.subsecond_lt)
    have regroup : d.subsecond * (2 ^ 30 * 2 ^ k) = 2 ^ 30 * (d.subsecond * 2 ^ k) := by ring
    rw [hk, regroup]
    unfold nanosPerSecond at *
    omega
  rw [hk]
  omega

theorem toSeconds_eq_units (d : Duration) : d.toSeconds = .finite false d.units := by
  have rest_le := d.restUnits_le
  have whole_le := d.wholeUnits_le
  have fits : d.wholeUnits + d.restUnits ≤ maxUnits * 1 := by
    have large := mul_unitsPerOne_le_maxUnits (c := 2 ^ 64 + 1) (by decide)
    omega
  have whole : Binary64.ofNat d.seconds = .finite false d.wholeUnits := by
    apply ofUnits_finite _ Nat.one_pos
    rw [Nat.mul_one]
    apply mul_unitsPerOne_le_maxUnits
    exact d.seconds_lt.le.trans (Nat.pow_le_pow_right two_pos (by decide))
  have rest : Binary64.ofNat d.subsecond / Binary64.ofNat nanosPerSecond =
      .finite false d.restUnits := by
    have small : d.subsecond < 2 ^ 53 := d.subsecond_lt.trans (by decide)
    have ratio := (Exact.of_lt small).div_ofNat (Exact.of_lt (by decide)) nanosPerSecond_pos
    apply ratio.trans
    apply ofUnits_finite _ nanosPerSecond_pos
    calc d.subsecond * unitsPerOne ≤ 2 ^ 53 * unitsPerOne := Nat.mul_le_mul_right _ small.le
      _ ≤ maxUnits := mul_unitsPerOne_le_maxUnits (by decide)
      _ ≤ maxUnits * nanosPerSecond := Nat.le_mul_of_pos_right _ nanosPerSecond_pos
  unfold toSeconds
  rw [whole, rest, finite_add, ofUnits_finite _ Nat.one_pos fits]
  rfl

theorem units_of_whole (whole : d.subsecond = 0) (h : d.seconds ≤ 2 ^ 53) :
    d.units = d.seconds * unitsPerOne := by
  have none : d.restUnits = 0 := by simp [restUnits, whole, roundUnits, roundHalfEven]
  have exact := (isMagnitude_mul_unitsPerOne h).roundUnits_eq Nat.one_pos
  rw [Nat.mul_one] at exact
  rw [units, none, wholeUnits_eq h, Nat.add_zero, exact]

/-! ## Order -/

theorem le_iff_nanos : d ≤ e ↔ d.nanos ≤ e.nanos := Iff.rfl

theorem seconds_mono (h : d ≤ e) : d.seconds ≤ e.seconds := Nat.div_le_div_right h

theorem wholeUnits_mono (h : d.seconds ≤ e.seconds) : d.wholeUnits ≤ e.wholeUnits :=
  roundUnits_mono Nat.one_pos (Nat.mul_le_mul_right _ h)

theorem wholeUnits_le_units (d : Duration) : d.wholeUnits ≤ d.units := by
  apply d.isMagnitude_wholeUnits.le_roundUnits Nat.one_pos
  omega

theorem units_of_large (h : 2 ^ 53 ≤ d.seconds) : d.units = d.wholeUnits := by
  obtain ⟨u, hu⟩ : ∃ u, unitsPerOne = 2 ^ u := ⟨_, unitsPerOne_eq rfl⟩
  have rest := d.restUnits_le
  have least : 2 ^ (u + 53) ≤ d.wholeUnits := by
    rw [Nat.pow_add, ← hu, Nat.mul_comm]
    apply (isMagnitude_two_pow_mul_unitsPerOne 53).le_roundUnits Nat.one_pos
    rw [Nat.mul_one]
    exact Nat.mul_le_mul_right _ h
  have le := d.wholeUnits_le_units
  have next : d.units < d.wholeUnits + 2 ^ (u + 1) := by
    have near := roundUnits_nearest (n := d.wholeUnits + d.restUnits) Nat.one_pos
      d.isMagnitude_wholeUnits
    change (((d.units * 1 : Nat) : Int) - _).natAbs ≤ _ at near
    have two : 2 ^ (u + 1) = 2 * unitsPerOne := by rw [hu, Nat.pow_succ, Nat.mul_comm]
    have positive := unitsPerOne_pos
    rw [two]
    omega
  -- The doubles are two seconds apart here, which is more than the rest can move the sum.
  obtain ⟨a, ha⟩ := d.isMagnitude_wholeUnits.dvd least
  obtain ⟨b, hb⟩ := d.isMagnitude_units.dvd (least.trans le)
  rw [ha, hb, ← Nat.mul_succ] at next
  have steps := Nat.lt_of_mul_lt_mul_left next
  apply le.antisymm'
  rw [ha, hb]
  exact Nat.mul_le_mul_left _ (Nat.le_of_lt_succ steps)

theorem units_mono (h : d ≤ e) : d.units ≤ e.units := by
  have one := unitsPerOne_pos
  have rest := d.restUnits_le
  have seconds := seconds_mono h
  by_cases large : 2 ^ 53 ≤ d.seconds
  · rw [units_of_large large, units_of_large (large.trans seconds)]
    exact wholeUnits_mono seconds
  · apply roundUnits_mono Nat.one_pos
    have whole : d.wholeUnits = d.seconds * unitsPerOne := wholeUnits_eq (Nat.le_of_not_le large)
    obtain same | less := seconds.eq_or_lt
    · have rests : d.restUnits ≤ e.restUnits := by
        have parts := d.seconds_add_subsecond
        have parts' := e.seconds_add_subsecond
        rw [le_iff_nanos, ← parts, ← parts', same] at h
        apply roundUnits_mono nanosPerSecond_pos
        exact Nat.mul_le_mul_right _ (Nat.le_of_add_le_add_left h)
      exact Nat.add_le_add (wholeUnits_mono seconds) rests
    · -- The next second is a double, and the rest does not reach it.
      have next : (d.seconds + 1) * unitsPerOne ≤ e.wholeUnits := by
        apply (isMagnitude_mul_unitsPerOne (Nat.lt_of_not_le large)).le_roundUnits Nat.one_pos
        rw [Nat.mul_one]
        exact Nat.mul_le_mul_right _ less
      rw [whole]
      rw [Nat.succ_mul] at next
      omega

theorem units_le (d : Duration) : d.units ≤ 2 ^ 64 * unitsPerOne := by
  by_cases large : 2 ^ 53 ≤ d.seconds
  · exact (units_of_large large).trans_le d.wholeUnits_le
  · have rest := d.restUnits_le
    have below := Nat.mul_le_mul_right unitsPerOne (Nat.le_of_not_le large)
    have whole : d.wholeUnits = d.seconds * unitsPerOne := wholeUnits_eq (Nat.le_of_not_le large)
    apply (isMagnitude_two_pow_mul_unitsPerOne 64).roundUnits_le Nat.one_pos
    rw [whole]
    omega

/-! ## Powers of two -/

def Nears (seconds nanos : Nat) : Prop := (2 ^ 54 - 1) * (seconds * nanosPerSecond) ≤ 2 ^ 54 * nanos

theorem two_pow_le_units_of_le {q : Nat} (h : 2 ^ q ≤ d.seconds) :
    2 ^ q * unitsPerOne ≤ d.units ∧ Nears (2 ^ q) d.nanos := by
  constructor
  · apply le_trans _ d.wholeUnits_le_units
    apply (isMagnitude_two_pow_mul_unitsPerOne q).le_roundUnits Nat.one_pos
    rw [Nat.mul_one]
    exact Nat.mul_le_mul_right _ h
  · have long := le_seconds_iff.1 h
    unfold Nears
    omega

section

variable {k : Nat} (hk : unitsPerOne = 2 ^ 54 * 2 ^ k)

include hk

theorem two_pow_le_units_iff_sum {q : Nat} : 2 ^ q * unitsPerOne ≤ d.units ↔
    (2 ^ 54 - 1) * (2 ^ q * 2 ^ k) ≤ d.wholeUnits + d.restUnits := by
  have power : 2 ^ q * unitsPerOne = 2 ^ (q + k + 54) := by
    rw [hk, Nat.pow_add, Nat.pow_add]
    ring
  rw [power, units, two_pow_le_roundUnits_iff Nat.one_pos, Nat.mul_one, Nat.pow_add]

theorem le_restUnits_iff {c : Nat} (hc : c < 2 ^ 31) : c * (2 ^ 23 * 2 ^ k) ≤ d.restUnits ↔
    c * 5 ^ 9 ≤ 2 ^ 22 * d.subsecond := by
  have ratio : d.subsecond * unitsPerOne = 2 ^ 54 * (d.subsecond * 2 ^ k) := by rw [hk]; ring
  constructor
  · -- Nanoseconds are far apart against the spacing of doubles, so that there is one between.
    intro reached
    by_contra far
    have short : 2 ^ 22 * (d.subsecond * 2 ^ k) + 2 ^ k ≤ 5 ^ 9 * (c * 2 ^ k) := by
      have scaled := Nat.mul_le_mul_right (2 ^ k) (Nat.lt_of_not_le far)
      linarith
    obtain ⟨m, hm⟩ := Nat.exists_eq_succ_of_ne_zero (n := 2 ^ 21 * c) (by omega)
    have step : m * 2 ^ k + 2 ^ k = 2 ^ 21 * (c * 2 ^ k) := by
      rw [← Nat.succ_mul, ← Nat.mul_assoc]
      exact congrArg (· * 2 ^ k) hm.symm
    have quarter : m * 2 ^ (k + 2) = 4 * (m * 2 ^ k) := by rw [Nat.pow_add]; ring
    have magnitude : IsMagnitude (m * 2 ^ (k + 2)) := ⟨_, _, by omega, rfl⟩
    have below : d.restUnits ≤ m * 2 ^ (k + 2) := by
      apply magnitude.roundUnits_le nanosPerSecond_pos
      rw [ratio, quarter]
      unfold nanosPerSecond
      omega
    rw [quarter] at below
    have product : c * (2 ^ 23 * 2 ^ k) = 2 ^ 23 * (c * 2 ^ k) := by ring
    have positive := Nat.two_pow_pos k
    omega
  · intro near
    have scaled : 5 ^ 9 * (c * 2 ^ k) ≤ 2 ^ 22 * (d.subsecond * 2 ^ k) := by
      have scaled := Nat.mul_le_mul_right (2 ^ k) near
      linarith
    have product : c * (2 ^ 23 * 2 ^ k) = 2 ^ 23 * (c * 2 ^ k) := by ring
    have magnitude : IsMagnitude (c * (2 ^ 23 * 2 ^ k)) := by
      rw [← Nat.pow_add]
      exact ⟨_, _, hc.trans (by decide), rfl⟩
    apply magnitude.le_roundUnits nanosPerSecond_pos
    rw [ratio, product]
    calc 2 ^ 23 * (c * 2 ^ k) * nanosPerSecond = 2 ^ 32 * (5 ^ 9 * (c * 2 ^ k)) := by
          unfold nanosPerSecond
          ring
      _ ≤ 2 ^ 32 * (2 ^ 22 * (d.subsecond * 2 ^ k)) := Nat.mul_le_mul_left _ scaled
      _ = 2 ^ 54 * (d.subsecond * 2 ^ k) := by ring

theorem two_pow_le_units_iff_of_small {q : Nat} (low : 23 ≤ q) (high : q ≤ 53) :
    2 ^ q * unitsPerOne ≤ d.units ↔ Nears (2 ^ q) d.nanos := by
  by_cases long : 2 ^ q ≤ d.seconds
  · obtain ⟨reached, near⟩ := two_pow_le_units_of_le long
    exact iff_of_true reached near
  · have most : 2 ^ q ≤ 2 ^ 53 := Nat.pow_le_pow_right two_pos high
    have whole : d.wholeUnits = d.seconds * unitsPerOne := wholeUnits_eq (by omega)
    have rest := d.restUnits_le
    have parts := d.seconds_add_subsecond
    have below := d.subsecond_lt
    rw [two_pow_le_units_iff_sum hk, whole, Nears, ← parts]
    rw [hk] at rest ⊢
    -- Only the last second before the power can come near to it.
    by_cases last : d.seconds + 1 = 2 ^ q
    · obtain ⟨j, rfl⟩ := Nat.exists_eq_add_of_le low
      have smallJ : 2 ^ j ≤ 2 ^ 30 := Nat.pow_le_pow_right two_pos (by omega)
      have positive := Nat.two_pow_pos j
      obtain ⟨c, hc⟩ := Nat.exists_eq_add_of_le (smallJ.trans (by decide : 2 ^ 30 ≤ 2 ^ 31))
      have power : 2 ^ (23 + j) = 2 ^ 23 * 2 ^ j := Nat.pow_add ..
      rw [power] at last ⊢
      have reached : (2 ^ 54 - 1) * (2 ^ 23 * 2 ^ j * 2 ^ k) ≤
          d.seconds * (2 ^ 54 * 2 ^ k) + d.restUnits ↔ c * (2 ^ 23 * 2 ^ k) ≤ d.restUnits := by
        have lastE := congrArg (· * 2 ^ k) last
        have splitE := congrArg (· * 2 ^ k) hc
        simp only [Nat.add_mul, Nat.mul_assoc, Nat.one_mul] at lastE splitE ⊢
        have regroup : d.seconds * (2 ^ 54 * 2 ^ k) = 2 ^ 54 * (d.seconds * 2 ^ k) := by ring
        have regroup' : c * (2 ^ 23 * 2 ^ k) = 2 ^ 23 * (c * 2 ^ k) := by ring
        rw [regroup, regroup']
        omega
      have nanos : (2 ^ 54 - 1) * (2 ^ 23 * 2 ^ j * nanosPerSecond) ≤
          2 ^ 54 * (d.seconds * nanosPerSecond + d.subsecond) ↔
            c * 5 ^ 9 ≤ 2 ^ 22 * d.subsecond := by
        unfold nanosPerSecond
        omega
      rw [reached, nanos]
      exact le_restUnits_iff hk (by omega)
    · have short : d.seconds + 2 ≤ 2 ^ q := by omega
      have positive := Nat.two_pow_pos k
      have shortE := Nat.mul_le_mul_right (2 ^ k) short
      have mostE := Nat.mul_le_mul_right (2 ^ k) most
      have regroup : d.seconds * (2 ^ 54 * 2 ^ k) = 2 ^ 54 * (d.seconds * 2 ^ k) := by ring
      rw [Nat.add_mul] at shortE
      unfold nanosPerSecond at *
      apply iff_of_false
      · omega
      · omega

theorem two_pow_le_units_iff_of_large {q : Nat} (low : 54 ≤ q) :
    2 ^ q * unitsPerOne ≤ d.units ↔ Nears (2 ^ q) d.nanos := by
  obtain ⟨j, rfl⟩ := Nat.exists_eq_add_of_le low
  have power : 2 ^ (54 + j) = 2 ^ 54 * 2 ^ j := Nat.pow_add ..
  have positive := Nat.mul_pos (Nat.two_pow_pos j) (Nat.two_pow_pos k)
  have least : 2 ^ k ≤ 2 ^ j * 2 ^ k := Nat.le_mul_of_pos_left _ (Nat.two_pow_pos j)
  have rest := d.restUnits_le
  -- On both sides the whole seconds decide, and the rest is too little to matter.
  have near : Nears (2 ^ (54 + j)) d.nanos ↔ (2 ^ 54 - 1) * 2 ^ j ≤ d.seconds := by
    have parts := d.seconds_add_subsecond
    have below := d.subsecond_lt
    rw [Nears, ← parts, power]
    unfold nanosPerSecond at *
    omega
  have whole : 2 ^ 54 * (2 ^ 54 * (2 ^ j * 2 ^ k)) ≤ d.wholeUnits ↔
      (2 ^ 54 - 1) * 2 ^ j ≤ d.seconds := by
    have scale : 2 ^ 54 * (2 ^ 54 * (2 ^ j * 2 ^ k)) = 2 ^ (54 + j + k + 54) := by
      rw [Nat.pow_add, Nat.pow_add, power]
      ring
    have halves :
        (2 ^ 54 - 1) * (2 ^ (54 + j + k) * 1) = (2 ^ 54 - 1) * 2 ^ j * (2 ^ 54 * 2 ^ k) := by
      rw [Nat.pow_add _ (54 + j), power]
      ring
    rw [scale, wholeUnits, two_pow_le_roundUnits_iff Nat.one_pos, halves, hk]
    exact Nat.mul_le_mul_right_iff (Nat.mul_pos (Nat.two_pow_pos 54) (Nat.two_pow_pos k))
  rw [two_pow_le_units_iff_sum hk, near, power]
  rw [hk] at rest
  by_cases long : (2 ^ 54 - 1) * 2 ^ j ≤ d.seconds
  · have reached := whole.2 long
    refine iff_of_true ?_ long
    rw [Nat.mul_assoc (2 ^ 54)]
    omega
  · have short := Nat.lt_of_not_le (mt whole.1 long)
    have scale : 2 ^ 54 * (2 ^ 54 * (2 ^ j * 2 ^ k)) = 2 ^ (54 + j + k + 1 + 53) := by
      rw [Nat.pow_add, Nat.pow_add, Nat.pow_add, power]
      ring
    have spacing : 2 ^ (54 + j + k + 1) = 2 * (2 ^ 54 * (2 ^ j * 2 ^ k)) := by
      rw [Nat.pow_succ, Nat.pow_add, power]
      ring
    have gap := d.isMagnitude_wholeUnits.add_le (short.trans_eq scale)
    rw [← scale, spacing] at gap
    refine iff_of_false ?_ long
    rw [Nat.mul_assoc (2 ^ 54)]
    omega

end

theorem two_pow_le_units_iff {q : Nat} (low : 23 ≤ q) :
    2 ^ q * unitsPerOne ≤ d.units ↔ Nears (2 ^ q) d.nanos := by
  obtain ⟨k, hk⟩ := exists_unitsPerOne_eq (j := 54) (by decide)
  obtain small | large := Nat.lt_or_ge q 54
  · exact two_pow_le_units_iff_of_small hk low (Nat.le_of_lt_succ small)
  · exact two_pow_le_units_iff_of_large hk large

/-! ## Errors -/

theorem restUnits_error (d : Duration) : Within (2 ^ 53 * (d.restUnits * nanosPerSecond))
    (2 ^ 53 * (d.subsecond * unitsPerOne)) (nanosPerSecond * unitsPerOne) := by
  have small := Nat.mul_lt_mul_of_pos_right d.subsecond_lt unitsPerOne_pos
  have below : d.subsecond * unitsPerOne < 2 ^ 0 * unitsPerOne * nanosPerSecond := by
    rwa [Nat.pow_zero, Nat.one_mul, Nat.mul_comm unitsPerOne]
  have error := roundUnits_error 0 nanosPerSecond_pos below
  rwa [Nat.pow_zero, Nat.one_mul, Nat.mul_comm unitsPerOne] at error

theorem units_error {i : Nat} (hi : i ≤ 53) (h : d.seconds < 2 ^ i) :
    Within (2 ^ 53 * (d.units * nanosPerSecond)) (2 ^ 53 * (d.nanos * unitsPerOne))
      ((2 ^ i + 1) * (nanosPerSecond * unitsPerOne)) := by
  have rest := d.restUnits_error
  have rest_le := d.restUnits_le
  have exact := h.le.trans (Nat.pow_le_pow_right two_pos hi)
  have next := Nat.mul_le_mul_right unitsPerOne (Nat.succ_le_of_lt h)
  have parts := congrArg (· * unitsPerOne) d.seconds_add_subsecond
  have below : d.wholeUnits + d.restUnits < 2 ^ i * unitsPerOne * 1 := by
    have positive := unitsPerOne_pos
    rw [wholeUnits_eq exact]
    rw [Nat.succ_mul] at next
    omega
  have sum := roundUnits_error i Nat.one_pos below
  change Within (2 ^ 53 * (d.units * 1)) _ _ at sum
  rw [wholeUnits_eq exact] at sum
  unfold Within nanosPerSecond at *
  constructor <;> linarith

theorem units_relative_error (h : d.seconds ≤ 2 ^ 53) :
    Within (2 ^ 53 * (d.units * nanosPerSecond)) (2 ^ 53 * (d.nanos * unitsPerOne))
      (6 * (d.nanos * unitsPerOne)) := by
  obtain ⟨k, hk⟩ := exists_unitsPerOne_eq (j := 82) (by decide)
  have rest : Within (2 ^ 53 * (d.restUnits * nanosPerSecond))
      (2 ^ 53 * (d.subsecond * unitsPerOne)) (2 * (d.subsecond * unitsPerOne)) := by
    obtain none | some := Nat.eq_zero_or_pos d.subsecond
    · have zero : d.restUnits = 0 := by simp [restUnits, none, roundUnits, roundHalfEven]
      rw [zero, none]
      simp [Within]
    · apply roundUnits_relative_error nanosPerSecond_pos
      have positive := Nat.two_pow_pos k
      calc 2 ^ 52 * nanosPerSecond ≤ 1 * (2 ^ 82 * 2 ^ k) := by
            unfold nanosPerSecond
            omega
        _ ≤ d.subsecond * unitsPerOne := by
            rw [hk]
            exact Nat.mul_le_mul_right _ some
  have sum : Within (2 ^ 53 * d.units) (2 ^ 53 * (d.wholeUnits + d.restUnits))
      (2 * (d.wholeUnits + d.restUnits)) := by
    obtain exact | normal := Nat.lt_or_ge (d.wholeUnits + d.restUnits) (2 ^ 53)
    · have same := roundUnits_mul_two_pow 0 exact
      rw [Nat.pow_zero, Nat.mul_one] at same
      rw [units, same]
      unfold Within
      omega
    · have error := roundUnits_relative_error (n := d.wholeUnits + d.restUnits) Nat.one_pos
        (by omega)
      rwa [Nat.mul_one] at error
  have parts := congrArg (· * unitsPerOne) d.seconds_add_subsecond
  have seconds := Nat.zero_le (d.seconds * unitsPerOne)
  have subsecond := Nat.zero_le (d.subsecond * unitsPerOne)
  rw [wholeUnits_eq h] at sum
  unfold Within nanosPerSecond at *
  constructor <;> linarith

/-! ## Back from seconds -/

theorem ofSecondsFloat?_finite (u : Nat) : ofSecondsFloat? (.finite false u) =
    ofNanos? (roundHalfEven (u * nanosPerSecond) unitsPerOne) := by
  have positive : ¬ (false && decide (u ≠ 0)) = true := by simp
  unfold ofSecondsFloat?
  dsimp only
  rw [if_neg positive]

theorem durationLimit_eq : durationLimit = 2 ^ 64 * nanosPerSecond := by decide

theorem ofNanos?_eq_none_iff {n : Nat} : ofNanos? n = none ↔ durationLimit ≤ n := by
  unfold ofNanos?
  split_ifs with h
  · simpa using h
  · simpa using h

theorem ofSecondsFloat?_eq_none_iff {u : Nat} (h : IsMagnitude u) :
    ofSecondsFloat? (.finite false u) = none ↔ 2 ^ 64 * unitsPerOne ≤ u := by
  rw [ofSecondsFloat?_finite, ofNanos?_eq_none_iff, durationLimit_eq]
  constructor
  · intro beyond
    by_contra less
    have gap := h.below (Nat.lt_of_not_le less)
    have most : roundHalfEven (u * nanosPerSecond) unitsPerOne ≤
        (2 ^ 64 - 2 ^ 11) * nanosPerSecond := by
      apply roundHalfEven_le_of_le unitsPerOne_pos
      have under : u ≤ (2 ^ 64 - 2 ^ 11) * unitsPerOne := by omega
      exact (Nat.mul_le_mul_right _ under).trans_eq (Nat.mul_right_comm ..)
    unfold nanosPerSecond at *
    omega
  · intro large
    apply le_trans _ (le_roundHalfEven ..)
    rw [Nat.le_div_iff_mul_le unitsPerOne_pos, Nat.mul_right_comm]
    exact Nat.mul_le_mul_right _ large

end Duration

end MarketFeed
