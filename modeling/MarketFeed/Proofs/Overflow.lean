import Mathlib
import MarketFeed.Proofs.Delays

/-!
# Delays that are out of range

Which delays are too long to be computed, over all settings. Only seconds that are `2 ^ 64` as a
double have no duration, which the schedule of the attempts to reconnect reaches by the configured
delay alone, and the delays before retries by doubling, where the ceiling lets them.
-/

namespace MarketFeed

open Binary64

namespace Duration

theorem nears_mul {a n c : Nat} (hc : 0 < c) : Nears (a * c) (n * c) ↔ Nears a n := by
  unfold Nears
  rw [Nat.mul_right_comm a, ← Nat.mul_assoc, ← Nat.mul_assoc (2 ^ 54)]
  exact Nat.mul_le_mul_right_iff hc

theorem nears_of_le {a n : Nat} (h : a * nanosPerSecond ≤ n) : Nears a n := by
  unfold Nears
  omega

theorem nears_two_pow_64 {n : Nat} : Nears (2 ^ 64) n ↔ (2 ^ 64 - 2 ^ 10) * nanosPerSecond ≤ n := by
  unfold Nears nanosPerSecond
  omega

theorem nears_two_pow_63 {n : Nat} : Nears (2 ^ 63) n ↔ (2 ^ 63 - 2 ^ 9) * nanosPerSecond ≤ n := by
  unfold Nears nanosPerSecond
  omega

theorem units_of_nears {d : Duration} (h : Nears (2 ^ 64) d.nanos) :
    d.units = 2 ^ 64 * unitsPerOne :=
  Nat.le_antisymm d.units_le ((two_pow_le_units_iff (by decide)).2 h)

end Duration

open Duration

/-! ## Attempts to reconnect -/

namespace Schedule

variable {s : StreamSettings} {n : Nat}

theorem nears_maxDelay (s : StreamSettings) :
    Nears (2 ^ 64) (ofSettings s).maxDelay.nanos ↔ Nears (2 ^ 64) s.reconnectDelay.nanos := by
  have short : Duration.fiveMinutes.nanos = 300 * nanosPerSecond := fiveMinutes_nanos
  have longer : (ofSettings s).maxDelay =
      if Duration.fiveMinutes ≤ s.reconnectDelay then s.reconnectDelay else .fiveMinutes := rfl
  rw [longer]
  split_ifs with long
  · exact Iff.rfl
  · have less : ¬ Duration.fiveMinutes.nanos ≤ s.reconnectDelay.nanos := long
    rw [nears_two_pow_64, nears_two_pow_64]
    unfold nanosPerSecond at *
    omega

theorem fits_iff_of_nears (h : Nears (2 ^ 64) s.reconnectDelay.nanos) :
    Fits s.reconnectDelay n ↔ n ≤ 960 := by
  have product : s.reconnectDelay.units * 2 ^ (n - 1) = 2 ^ (64 + (n - 1)) * unitsPerOne := by
    rw [units_of_nears h, Nat.pow_add, Nat.mul_right_comm]
  rw [Fits, product, two_pow_mul_le_maxUnits_iff]
  omega

theorem baseDelay?_eq_none_iff (s : StreamSettings) (n : Nat) : (ofSettings s).baseDelay? n = none ↔
    (2 ^ 64 - 2 ^ 10) * nanosPerSecond ≤ s.reconnectDelay.nanos ∧ n ≤ 960 := by
  rw [← nears_two_pow_64]
  by_cases fits : Fits s.reconnectDelay n
  · have magnitude := (s.reconnectDelay.isMagnitude_units.mul_two_pow (n - 1)).min
      (ofSettings s).maxDelay.isMagnitude_units
    rw [baseDelay?_of_fits fits, ofSecondsFloat?_eq_none_iff magnitude]
    constructor
    · intro beyond
      have ceiling := (two_pow_le_units_iff (by decide)).1 (beyond.trans (Nat.min_le_right ..))
      have long := (nears_maxDelay s).1 ceiling
      exact ⟨long, (fits_iff_of_nears long).1 fits⟩
    · rintro ⟨long, -⟩
      apply Nat.le_min.2 ⟨_, _⟩
      · rw [units_of_nears long]
        exact Nat.le_mul_of_pos_right _ (Nat.two_pow_pos _)
      · exact (two_pow_le_units_iff (by decide)).2 ((nears_maxDelay s).2 long)
  · rw [baseDelay?_of_not_fits fits]
    apply iff_of_false nofun
    rintro ⟨long, few⟩
    exact fits ((fits_iff_of_nears long).2 few)

end Schedule

/-! ## Retries -/

namespace Backoff

def answers (b : Backoff) : Nat → List NextAttempt
  | 0 => []
  | calls + 1 => b.next.1 :: b.next.2.answers calls

theorem doubled?_eq_none_iff (b : Backoff) : b.doubled? = none ↔
    Nears (2 ^ 64) b.ceiling.nanos ∧ Nears (2 ^ 63) b.delay.nanos := by
  have magnitude := (isMagnitude_twice b.delay).min b.ceiling.isMagnitude_units
  rw [doubled?_finite, ofSecondsFloat?_eq_none_iff magnitude, ← two_pow_le_units_iff (by decide),
    ← two_pow_le_units_iff (by decide)]
  have both : 2 ^ 64 * unitsPerOne ≤ Nat.min (b.delay.units * 2) b.ceiling.units ↔
      2 ^ 64 * unitsPerOne ≤ b.delay.units * 2 ∧ 2 ^ 64 * unitsPerOne ≤ b.ceiling.units :=
    Nat.le_min
  rw [both]
  omega

def twice (d : Duration) : Nat := roundHalfEven (d.units * 2 * nanosPerSecond) unitsPerOne

theorem le_twice {d : Duration} {c : Nat} (h : c * unitsPerOne ≤ d.units) :
    2 * c * nanosPerSecond ≤ twice d := by
  apply le_trans _ (le_roundHalfEven ..)
  rw [Nat.le_div_iff_mul_le unitsPerOne_pos]
  have scaled := Nat.mul_le_mul_right nanosPerSecond h
  linarith

theorem twice_exact {d : Duration} (h : d.seconds < 2 ^ 22) : twice d = 2 * d.nanos := by
  obtain ⟨above, below⟩ := units_error (by decide) h
  have unit := unitsPerOne_pos
  have double : 2 * d.nanos * unitsPerOne = 2 * (d.nanos * unitsPerOne) := Nat.mul_assoc ..
  unfold twice nanosPerSecond at *
  apply roundHalfEven_eq
  · rw [double]
    omega
  · rw [double]
    omega

/-- Twice a delay comes near to a power of two exactly if the delay comes near to half of it. -/
theorem twice_nears {d : Duration} {q : Nat} (hq : 23 ≤ q) :
    Nears (2 ^ (q + 1)) (twice d) ↔ Nears (2 ^ q) d.nanos := by
  have unit := unitsPerOne_pos
  have power : 2 ^ (q + 1) = 2 * 2 ^ q := by rw [Nat.pow_succ, Nat.mul_comm]
  rw [← two_pow_le_units_iff hq]
  constructor
  · intro near
    by_contra less
    have short : d.units * 2 < 2 ^ (q + 1) * unitsPerOne := by
      rw [power, Nat.mul_assoc]
      omega
    have gap := (isMagnitude_twice d).below short
    have large : 2 ^ 24 * unitsPerOne ≤ 2 ^ (q + 1) * unitsPerOne :=
      Nat.mul_le_mul_right _ (Nat.pow_le_pow_right two_pos (by omega))
    have rounded := (roundHalfEven_within (d.units * 2 * nanosPerSecond) unit).1
    have scaled := Nat.mul_le_mul_right unitsPerOne near
    change 2 * (twice d * unitsPerOne) ≤ _ at rounded
    have regroup : (2 ^ 54 - 1) * (2 ^ (q + 1) * nanosPerSecond) * unitsPerOne =
        (2 ^ 54 - 1) * (2 ^ (q + 1) * unitsPerOne * nanosPerSecond) := by ring
    have regroup' : 2 ^ 54 * twice d * unitsPerOne = 2 ^ 54 * (twice d * unitsPerOne) :=
      Nat.mul_assoc ..
    rw [regroup, regroup'] at scaled
    generalize 2 ^ (q + 1) * unitsPerOne = p at gap large scaled
    unfold nanosPerSecond at *
    omega
  · intro reached
    have least := le_twice reached
    rw [← power] at least
    exact nears_of_le least

theorem nears_twice {d : Duration} (j : Nat) :
    Nears (2 ^ 63) (twice d * 2 ^ j) ↔ Nears (2 ^ 63) (d.nanos * 2 ^ (j + 1)) := by
  -- Short delays are doubled without loss.
  by_cases short : d.seconds < 2 ^ 22
  · have product : 2 * d.nanos * 2 ^ j = d.nanos * 2 ^ (j + 1) := by
      rw [Nat.pow_succ]
      ring
    rw [twice_exact short, product]
  · -- Few doublings more do not lead there from below `2 ^ 24` seconds, so that nothing is asked of
    -- powers of two that are too small for doubles to come near to them as nanoseconds do.
    have long := Nat.le_of_not_lt short
    by_cases few : j < 40
    · obtain ⟨q, hq⟩ := Nat.exists_eq_add_of_lt (show j < 63 by omega)
      have power : 2 ^ 63 = 2 ^ (q + 1) * 2 ^ j := by rw [← Nat.pow_add, hq]; congr 1; omega
      have power' : 2 ^ 63 = 2 ^ q * 2 ^ (j + 1) := by rw [← Nat.pow_add, hq]; congr 1; omega
      have left : Nears (2 ^ 63) (twice d * 2 ^ j) ↔ Nears (2 ^ (q + 1)) (twice d) := by
        rw [power]
        exact nears_mul (Nat.two_pow_pos j)
      have right : Nears (2 ^ 63) (d.nanos * 2 ^ (j + 1)) ↔ Nears (2 ^ q) d.nanos := by
        rw [power']
        exact nears_mul (Nat.two_pow_pos (j + 1))
      rw [left, right]
      exact twice_nears (by omega)
    · -- So many doublings come to `2 ^ 63` seconds from `2 ^ 22` seconds on.
      have enough : 2 ^ 63 * nanosPerSecond = 2 * 2 ^ 22 * nanosPerSecond * 2 ^ 40 := by decide
      have enough' : 2 ^ 63 * nanosPerSecond = 2 ^ 22 * nanosPerSecond * 2 ^ 41 := by decide
      apply iff_of_true
      · apply nears_of_le
        rw [enough]
        exact Nat.mul_le_mul (le_twice (two_pow_le_units_of_le long).1)
          (Nat.pow_le_pow_right two_pos (by omega))
      · apply nears_of_le
        rw [enough']
        exact Nat.mul_le_mul (le_seconds_iff.1 long) (Nat.pow_le_pow_right two_pos (by omega))

theorem nanos_of_ofNanos? {n : Nat} {d : Duration} (h : ofNanos? n = some d) : d.nanos = n := by
  unfold ofNanos? at h
  split_ifs at h
  cases h
  rfl

theorem nanos_following {b : Backoff} {following : Duration}
    (ceiling : Nears (2 ^ 64) b.ceiling.nanos) (h : b.doubled? = some following) :
    ¬ Nears (2 ^ 63) b.delay.nanos ∧ following.nanos = twice b.delay := by
  have less : ¬ Nears (2 ^ 63) b.delay.nanos := by
    intro far
    have none := b.doubled?_eq_none_iff.2 ⟨ceiling, far⟩
    cases none.symm.trans h
  refine ⟨less, nanos_of_ofNanos? ?_⟩
  have below : b.delay.units * 2 ≤ b.ceiling.units := by
    rw [units_of_nears ceiling]
    have short := mt (two_pow_le_units_iff (by decide)).1 less
    omega
  have least : Nat.min (b.delay.units * 2) b.ceiling.units = b.delay.units * 2 :=
    Nat.min_eq_left below
  rw [← h, doubled?_finite, least, ofSecondsFloat?_finite]
  rfl

theorem answers_of_left_eq_zero {b : Backoff} (h : b.left = 0) (calls : Nat) :
    .outOfRange ∉ b.answers calls := by
  induction calls with
  | zero => exact List.not_mem_nil
  | succ calls ih =>
    rw [answers, next_of_left_eq_zero h]
    exact List.not_mem_cons_of_ne_of_not_mem nofun ih

theorem outOfRange_mem_answers_iff (b : Backoff) (calls : Nat) :
    .outOfRange ∈ b.answers calls ↔ Nears (2 ^ 64) b.ceiling.nanos ∧
      ∃ i, i < min calls b.left ∧ Nears (2 ^ 63) (b.delay.nanos * 2 ^ i) := by
  induction calls generalizing b with
  | zero =>
    apply iff_of_false List.not_mem_nil
    rintro ⟨-, i, early, -⟩
    omega
  | succ calls ih =>
    by_cases left : b.left = 0
    · apply iff_of_false (answers_of_left_eq_zero left _)
      rintro ⟨-, i, early, -⟩
      omega
    · cases following : b.doubled? with
      | none =>
        obtain ⟨ceiling, far⟩ := b.doubled?_eq_none_iff.1 following
        rw [answers, next_of_none left following]
        apply iff_of_true List.mem_cons_self
        refine ⟨ceiling, 0, by omega, ?_⟩
        rwa [Nat.pow_zero, Nat.mul_one]
      | some d =>
        rw [answers, next_of_some left following, List.mem_cons, ih]
        simp only [reduceCtorEq, false_or]
        refine and_congr_right fun ceiling => ?_
        obtain ⟨short, nanos⟩ := nanos_following ceiling following
        rw [nanos]
        -- The delay itself is not far, so that what is found is found among the later ones.
        constructor
        · rintro ⟨i, early, far⟩
          exact ⟨i + 1, by omega, (nears_twice i).1 far⟩
        · rintro ⟨i, early, far⟩
          cases i with
          | zero =>
            rw [Nat.pow_zero, Nat.mul_one] at far
            exact absurd far short
          | succ i => exact ⟨i, by omega, (nears_twice i).2 far⟩

end Backoff

/-- No delay is out of range but these: that of one of the first attempts to reconnect, if the
configured delay is `2 ^ 64` seconds as a double, and that of a retry, if the ceiling is so and the
delay comes to `2 ^ 63` seconds by doubling. -/
theorem outOfRange_iff (stream : StreamSettings) (http : HttpSettings) :
    (∀ n, (Schedule.ofSettings stream).baseDelay? n = none ↔
      (2 ^ 64 - 2 ^ 10) * nanosPerSecond ≤ stream.reconnectDelay.nanos ∧ n ≤ 960) ∧
    ∀ calls, .outOfRange ∈ (Backoff.ofSettings http).answers calls ↔
      (2 ^ 64 - 2 ^ 10) * nanosPerSecond ≤ http.maxBackoff.nanos ∧
        ∃ i, i < min calls http.maxRetries ∧
          (2 ^ 63 - 2 ^ 9) * nanosPerSecond ≤ http.initialBackoff.nanos * 2 ^ i := by
  refine ⟨Schedule.baseDelay?_eq_none_iff stream, fun calls => ?_⟩
  rw [Backoff.outOfRange_mem_answers_iff, nears_two_pow_64]
  simp only [nears_two_pow_63]
  exact Iff.rfl

theorem longest_outOfRange :
    let http : HttpSettings := { initialBackoff := .longest, maxBackoff := .longest }
    (Schedule.ofSettings { reconnectDelay := .longest }).baseDelay? 1 = none ∧
      .outOfRange ∈ (Backoff.ofSettings http).answers 1 := by
  decide +kernel

end MarketFeed
