import Mathlib
import MarketFeed.Proofs.Doubling
import MarketFeed.Reconnect.Schedule

/-!
# Delays between attempts

The delays of a schedule against their law over exact numbers: the first delay, doubled before each
further attempt, up to a ceiling. Powers of two are exact in doubles until they are infinite, so all
that is lost is what the seconds of the first delay lose, which is nothing once the result is a
duration again.
-/

namespace MarketFeed

/-! ## The law -/

/-- The longest delay, unless the first one is longer. -/
def Duration.fiveMinutes : Duration := .ofSeconds 300

theorem Duration.fiveMinutes_nanos : fiveMinutes.nanos = 300 * nanosPerSecond :=
  nanos_clamp (by decide)

def StreamSettings.delay (s : StreamSettings) (n : Nat) : Duration :=
  ⟨Nat.min (s.reconnectDelay.nanos * 2 ^ (n - 1)) Duration.fiveMinutes.nanos,
    Nat.lt_of_le_of_lt (Nat.min_le_right ..) Duration.fiveMinutes.nanos_lt⟩

theorem StreamSettings.nanos_delay (s : StreamSettings) (n : Nat) : (s.delay n).nanos =
    min (s.reconnectDelay.nanos * 2 ^ (n - 1)) Duration.fiveMinutes.nanos := rfl

theorem nanos_twiceUpTo (ceiling d : Duration) :
    (ceiling.twiceUpTo d).nanos = min (2 * d.nanos) ceiling.nanos := rfl

structure Doubles (ceiling first : Duration) (delay : Nat → Duration) : Prop where
  starts : delay 1 = first
  doubles : ∀ n, 1 ≤ n → delay (n + 1) = ceiling.twiceUpTo (delay n)
  rises : ∀ m n, m ≤ n → delay m ≤ delay n
  capped : ∀ n, delay n ≤ ceiling

theorem StreamSettings.delay_doubles {s : StreamSettings}
    (short : s.reconnectDelay ≤ .fiveMinutes) :
    Doubles .fiveMinutes s.reconnectDelay s.delay where
  starts := by
    apply Duration.ext
    rw [nanos_delay, Nat.sub_self, Nat.pow_zero, Nat.mul_one]
    exact Nat.min_eq_left short
  doubles n first := by
    obtain ⟨k, rfl⟩ := Nat.exists_eq_add_of_le' first
    have double : s.reconnectDelay.nanos * 2 ^ (k + 1) = 2 * (s.reconnectDelay.nanos * 2 ^ k) := by
      rw [Nat.pow_succ]
      ring
    apply Duration.ext
    rw [nanos_twiceUpTo, nanos_delay, nanos_delay, Nat.add_sub_cancel, Nat.add_sub_cancel, double]
    omega
  rises m n le := by
    have power : 2 ^ (m - 1) ≤ 2 ^ (n - 1) := Nat.pow_le_pow_right two_pos (by omega)
    rw [Duration.le_iff_nanos, nanos_delay, nanos_delay]
    gcongr
  capped n := by
    rw [Duration.le_iff_nanos, nanos_delay]
    exact Nat.min_le_right ..

namespace Binary64

/-! ## Powers of two -/

theorem two_pow_mul_le_maxUnits_iff {k : Nat} : 2 ^ k * unitsPerOne ≤ maxUnits ↔ k < 1024 := by
  obtain ⟨u, hu⟩ : ∃ u, u = 1074 := ⟨_, rfl⟩
  obtain ⟨e, he⟩ : ∃ e, e = 2045 := ⟨_, rfl⟩
  rw [unitsPerOne_eq hu, maxUnits_eq he, ← Nat.pow_add]
  have positive := Nat.two_pow_pos e
  constructor
  · intro fits
    by_contra large
    have least : 2 ^ (53 + e) ≤ 2 ^ (k + u) := Nat.pow_le_pow_right two_pos (by omega)
    rw [Nat.pow_add] at least
    omega
  · intro small
    have most : 2 ^ (k + u) ≤ 2 ^ (52 + e) := Nat.pow_le_pow_right two_pos (by omega)
    rw [Nat.pow_add 2 52] at most
    omega

def twoPow (k : Nat) : Binary64 :=
  if k < 1024 then .finite false (2 ^ k * unitsPerOne) else .infinite false

theorem twoPow_finite {k : Nat} (h : k < 1024) : twoPow k = .finite false (2 ^ k * unitsPerOne) :=
  if_pos h

theorem twoPow_infinite {k : Nat} (h : 1024 ≤ k) : twoPow k = .infinite false :=
  if_neg (Nat.not_lt_of_le h)

theorem twoPow_zero : twoPow 0 = one := by
  rw [twoPow_finite (by decide), Nat.pow_zero, Nat.one_mul]
  rfl

theorem twoPow_one : twoPow 1 = ofNat 2 := by
  rw [twoPow_finite (by decide), ofNat_eq (by decide), Nat.pow_one]

section

variable {u k : Nat}

theorem IsMagnitude.mul_twoPow (h : IsMagnitude u) (small : k < 1024) :
    (finite false u).mul (twoPow k) =
      if u * 2 ^ k ≤ maxUnits then .finite false (u * 2 ^ k) else .infinite false := by
  rw [twoPow_finite small, finite_mul_finite, ← Nat.mul_assoc]
  exact (h.mul_two_pow k).ofUnits_eq unitsPerOne_pos

theorem infinite_mul_finite (positive : 0 < u) :
    (infinite false).mul (finite false u) = .infinite false := if_neg positive.ne'

theorem finite_mul_infinite (u : Nat) :
    (finite false u).mul (infinite false) = if u = 0 then .nan else .infinite false := rfl

end

theorem twoPow_mul (a b : Nat) : (twoPow a).mul (twoPow b) = twoPow (a + b) := by
  have positive (k : Nat) : 0 < 2 ^ k * unitsPerOne :=
    Nat.mul_pos (Nat.two_pow_pos k) unitsPerOne_pos
  by_cases ha : a < 1024
  · by_cases hb : b < 1024
    · have product : 2 ^ a * unitsPerOne * 2 ^ b = 2 ^ (a + b) * unitsPerOne := by
        rw [Nat.pow_add, Nat.mul_right_comm]
      rw [twoPow_finite ha, (isMagnitude_two_pow_mul_unitsPerOne a).mul_twoPow hb, product, twoPow]
      simp only [two_pow_mul_le_maxUnits_iff]
    · rw [twoPow_finite ha, twoPow_infinite (k := b) (by omega),
        twoPow_infinite (k := a + b) (by omega), finite_mul_infinite, if_neg (positive a).ne']
  · rw [twoPow_infinite (k := a) (by omega), twoPow_infinite (k := a + b) (by omega)]
    by_cases hb : b < 1024
    · rw [twoPow_finite hb, infinite_mul_finite (positive b)]
    · rw [twoPow_infinite (k := b) (by omega)]
      rfl

theorem powNat_go (fuel a n b : Nat) (h : n < 2 ^ fuel) :
    powNat.go fuel (twoPow a) n (twoPow b) = twoPow (b + a * n) := by
  -- Squares and products keep the exponent that they come to, `b + a * n`.
  induction fuel generalizing a n b with
  | zero =>
    have none : n = 0 := by omega
    rw [none, Nat.mul_zero]
    rfl
  | succ fuel ih =>
    have factor : (if n % 2 = 1 then (twoPow b).mul (twoPow a) else twoPow b) =
        twoPow (b + a * (n % 2)) := by
      obtain even | odd := Nat.mod_two_eq_zero_or_one n
      · simp [even]
      · simp [odd, twoPow_mul]
    have half : n / 2 < 2 ^ fuel := by
      rw [Nat.pow_succ] at h
      omega
    have exponent : b + a * (n % 2) + (a + a) * (n / 2) = b + a * n := by
      have split := congrArg (a * ·) (Nat.mod_add_div n 2)
      rw [← split]
      ring
    unfold powNat.go
    dsimp only
    rw [factor, twoPow_mul, ih _ _ _ half, exponent]
    split_ifs with none last
    · rw [none, Nat.mul_zero]
      rfl
    · rw [← exponent, last, Nat.mul_zero]
      rfl
    · rfl

theorem powNat_two (n : Nat) : (ofNat 2).powNat n = twoPow n := by
  unfold powNat
  rw [← twoPow_one, ← twoPow_zero, powNat_go _ _ _ _ Nat.lt_log2_self, Nat.zero_add, Nat.one_mul]

theorem zero_le_finite (m : Nat) : zero.le (.finite false m) = true := by
  simp [zero, le, lt, eq, signedUnits]
  omega

end Binary64

open Binary64

namespace Schedule

/-! ## One delay -/

/-- The seconds before attempt `n` are a double, as long as there is no ceiling. -/
def Fits (d : Duration) (n : Nat) : Prop := n ≤ 1024 ∧ d.units * 2 ^ (n - 1) ≤ maxUnits

variable {s : StreamSettings} {n : Nat}

theorem uncapped_ofSettings (s : StreamSettings) (n : Nat) : (ofSettings s).uncapped n =
    (finite false s.reconnectDelay.units).mul (twoPow (Nat.min (n - 1) maxPower)) := by
  unfold uncapped ofSettings
  dsimp only
  rw [Duration.toSeconds_eq_units, powNat_two]
  rfl

theorem min_maxPower (few : n ≤ 1024) : Nat.min (n - 1) maxPower = n - 1 := by
  have large : 1023 ≤ maxPower := by decide
  apply Nat.min_eq_left
  omega

theorem uncapped_of_fits (h : Fits s.reconnectDelay n) :
    (ofSettings s).uncapped n = .finite false (s.reconnectDelay.units * 2 ^ (n - 1)) := by
  obtain ⟨few, fits⟩ := h
  have product := s.reconnectDelay.isMagnitude_units.mul_twoPow (k := n - 1) (by omega)
  rw [uncapped_ofSettings, min_maxPower few, product, if_pos fits]

theorem uncapped_of_not_fits (h : ¬ Fits s.reconnectDelay n) :
    ((ofSettings s).uncapped n).isFinite = false := by
  rw [uncapped_ofSettings]
  by_cases few : n ≤ 1024
  · have large : ¬ s.reconnectDelay.units * 2 ^ (n - 1) ≤ maxUnits := fun fits => h ⟨few, fits⟩
    have product := s.reconnectDelay.isMagnitude_units.mul_twoPow (k := n - 1) (by omega)
    rw [min_maxPower few, product, if_neg large]
    rfl
  · have power : 1024 ≤ Nat.min (n - 1) maxPower := Nat.le_min.2 ⟨by omega, by decide⟩
    rw [twoPow_infinite power, finite_mul_infinite]
    split_ifs <;> rfl

theorem baseDelay?_of_fits (h : Fits s.reconnectDelay n) : (ofSettings s).baseDelay? n =
    Duration.ofSecondsFloat? (.finite false
      (Nat.min (s.reconnectDelay.units * 2 ^ (n - 1)) (ofSettings s).maxDelay.units)) := by
  unfold baseDelay?
  rw [uncapped_of_fits h]
  dsimp only
  rw [zero_le_finite, Duration.toSeconds_eq_units, min_finite]
  exact if_pos rfl

theorem baseDelay?_of_not_fits (h : ¬ Fits s.reconnectDelay n) :
    (ofSettings s).baseDelay? n = some (ofSettings s).maxDelay := by
  unfold baseDelay?
  dsimp only
  rw [uncapped_of_not_fits h]
  rfl

/-! ## Against the law -/

theorem maxDelay_eq (short : s.reconnectDelay ≤ .fiveMinutes) :
    (ofSettings s).maxDelay = .fiveMinutes := by
  show Duration.max _ _ = _
  unfold Duration.max
  split_ifs with long
  · exact Duration.ext (Nat.le_antisymm short long)
  · rfl

theorem fiveMinutes_units : Duration.fiveMinutes.units = 300 * unitsPerOne := by
  have seconds : Duration.fiveMinutes.seconds = 300 := by decide
  rw [Duration.units_of_whole (by decide) (by rw [seconds]; decide), seconds]

theorem scaled_error (short : s.reconnectDelay ≤ .fiveMinutes) (k : Nat) :
    Within (2 ^ 53 * (s.reconnectDelay.units * 2 ^ k * nanosPerSecond))
      (2 ^ 53 * (s.reconnectDelay.nanos * 2 ^ k * unitsPerOne))
      (6 * (s.reconnectDelay.nanos * 2 ^ k * unitsPerOne)) := by
  have seconds : s.reconnectDelay.seconds ≤ 300 :=
    (Duration.seconds_mono short).trans (by decide)
  obtain ⟨above, below⟩ := Duration.units_relative_error (d := s.reconnectDelay) (by omega)
  have above := Nat.mul_le_mul_right (2 ^ k) above
  have below := Nat.mul_le_mul_right (2 ^ k) below
  constructor <;> linarith

theorem delay_of_not_fits (short : s.reconnectDelay ≤ .fiveMinutes)
    (positive : s.reconnectDelay ≠ .zero) (h : ¬ Fits s.reconnectDelay n) :
    s.delay n = .fiveMinutes := by
  apply Duration.ext
  rw [s.nanos_delay]
  apply Nat.min_eq_right
  rw [Duration.fiveMinutes_nanos]
  by_cases few : n ≤ 1024
  · have large : 2 ^ 53 * unitsPerOne ≤ maxUnits := mul_unitsPerOne_le_maxUnits (by decide)
    have overflow := Nat.lt_of_not_le fun fits => h ⟨few, fits⟩
    have error := scaled_error short (n - 1)
    generalize s.reconnectDelay.units * 2 ^ (n - 1) = u at overflow error
    generalize s.reconnectDelay.nanos * 2 ^ (n - 1) = t at error ⊢
    by_contra less
    have scaled := Nat.mul_le_mul_right unitsPerOne (Nat.le_of_not_le less)
    unfold Within nanosPerSecond at *
    omega
  · have some : 0 < s.reconnectDelay.nanos :=
      Nat.pos_of_ne_zero fun zero => positive (Duration.ext zero)
    calc 300 * nanosPerSecond ≤ 2 ^ 39 := by decide
      _ ≤ 2 ^ (n - 1) := Nat.pow_le_pow_right two_pos (by omega)
      _ ≤ s.reconnectDelay.nanos * 2 ^ (n - 1) := Nat.le_mul_of_pos_left _ some

theorem near_ceiling : Near (300 * unitsPerOne) (300 * nanosPerSecond) := by
  have unit := unitsPerOne_pos
  unfold Near nanosPerSecond
  omega

theorem near_delay (short : s.reconnectDelay ≤ .fiveMinutes) (n : Nat) :
    Near (Nat.min (s.reconnectDelay.units * 2 ^ (n - 1)) Duration.fiveMinutes.units)
      (s.delay n).nanos := by
  have error := scaled_error short (n - 1)
  have unit := unitsPerOne_pos
  show Near _ (Nat.min (s.reconnectDelay.nanos * 2 ^ (n - 1)) Duration.fiveMinutes.nanos)
  rw [fiveMinutes_units, Duration.fiveMinutes_nanos]
  generalize s.reconnectDelay.units * 2 ^ (n - 1) = u at error ⊢
  generalize s.reconnectDelay.nanos * 2 ^ (n - 1) = t at error ⊢
  by_cases below : t ≤ 300 * nanosPerSecond
  · refine Near.min ?_ near_ceiling
    have scaled := Nat.mul_le_mul_right unitsPerOne below
    unfold Within Near nanosPerSecond at *
    omega
  · -- What is beyond the ceiling by a nanosecond is so in doubles, too.
    have least : Nat.min t (300 * nanosPerSecond) = 300 * nanosPerSecond :=
      Nat.min_eq_right (Nat.le_of_not_le below)
    have least' : Nat.min u (300 * unitsPerOne) = 300 * unitsPerOne := by
      apply Nat.min_eq_right
      have scaled := Nat.mul_le_mul_right unitsPerOne (Nat.lt_of_not_le below)
      unfold Within nanosPerSecond at *
      omega
    rw [least, least']
    exact near_ceiling

theorem baseDelay?_eq_delay (short : s.reconnectDelay ≤ .fiveMinutes)
    (h : Fits s.reconnectDelay n) : (ofSettings s).baseDelay? n = some (s.delay n) := by
  rw [baseDelay?_of_fits h, maxDelay_eq short, (near_delay short n).ofSecondsFloat?]
  exact dif_pos _

theorem delay_of_zero (zero : s.reconnectDelay = .zero) (n : Nat) : s.delay n = .zero := by
  have none : s.reconnectDelay.nanos = 0 := congrArg Duration.nanos zero
  apply Duration.ext
  rw [s.nanos_delay, none, Nat.zero_mul]
  exact Nat.min_eq_left (Nat.zero_le _)

theorem fits_of_zero (zero : s.reconnectDelay = .zero) (few : n ≤ 1024) :
    Fits s.reconnectDelay n := by
  have units : s.reconnectDelay.units = 0 := by
    rw [zero, Duration.units_of_whole (by decide) (by decide)]
    exact Nat.zero_mul _
  refine ⟨few, ?_⟩
  rw [units, Nat.zero_mul]
  exact Nat.zero_le _

/-- The delays follow the law before every attempt, but for a first delay of zero from attempt 1025
on: the power of two is infinite then, and infinitely many times nothing is no number. -/
theorem baseDelay?_exact_iff (short : s.reconnectDelay ≤ .fiveMinutes) :
    Doubles .fiveMinutes s.reconnectDelay s.delay ∧
      ∀ n, (ofSettings s).baseDelay? n = some (s.delay n) ↔
        s.reconnectDelay ≠ .zero ∨ n ≤ 1024 := by
  refine ⟨s.delay_doubles short, fun n => ?_⟩
  by_cases fits : Fits s.reconnectDelay n
  · exact iff_of_true (baseDelay?_eq_delay short fits) (.inr fits.1)
  · rw [baseDelay?_of_not_fits fits, maxDelay_eq short]
    by_cases zero : s.reconnectDelay = .zero
    · rw [delay_of_zero zero]
      exact iff_of_false (by decide) (not_or_intro (not_not_intro zero) (mt (fits_of_zero zero) fits))
    · rw [delay_of_not_fits short zero fits]
      exact iff_of_true rfl (.inl zero)

theorem default_delays_exact :
    ({} : StreamSettings).reconnectDelay ≤ .fiveMinutes ∧
      ({} : StreamSettings).delay 6 = .ofSeconds 160 ∧
      Doubles .fiveMinutes ({} : StreamSettings).reconnectDelay ({} : StreamSettings).delay ∧
      ∀ n, (ofSettings {}).baseDelay? n = some (({} : StreamSettings).delay n) := by
  have short : ({} : StreamSettings).reconnectDelay ≤ .fiveMinutes := by decide
  have positive : ({} : StreamSettings).reconnectDelay ≠ .zero := by decide
  obtain ⟨doubles, exact⟩ := baseDelay?_exact_iff short
  exact ⟨short, by decide, doubles, fun n => (exact n).2 (.inl positive)⟩

/-- A first delay of zero stays zero by the law, and is the ceiling at attempt 1025. -/
theorem zero_delay_leaps :
    let s : StreamSettings := { reconnectDelay := .zero }
    s.delay 1025 = .zero ∧ (ofSettings s).baseDelay? 1024 = some .zero ∧
      (ofSettings s).baseDelay? 1025 = some .fiveMinutes := by
  decide +kernel

end Schedule

end MarketFeed
