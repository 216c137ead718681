import Mathlib
import MarketFeed.Duration

/-!
# Rounding

The whole number nearest to a ratio, and the double nearest to it. Each operation adds one rounding,
and `Within` carries the error along. Seconds are `Near` to nanoseconds if they are off by so little
that they are rounded back to them.
-/

namespace MarketFeed

/-! ## Nearest whole numbers -/

def Within (a b e : Nat) : Prop := 2 * a ≤ 2 * b + e ∧ 2 * b ≤ 2 * a + e

theorem Within.mono {a b e e' : Nat} (h : Within a b e) (he : e ≤ e') : Within a b e' := by
  unfold Within at h ⊢
  omega

theorem roundHalfEven_within (n : Nat) {d : Nat} (hd : 0 < d) :
    Within (roundHalfEven n d * d) n d := by
  have split := Nat.div_add_mod n d
  have rest := Nat.mod_lt n hd
  rw [Nat.mul_comm] at split
  have next : (n / d + 1) * d = n / d * d + d := Nat.succ_mul ..
  unfold Within roundHalfEven
  split_ifs <;> omega

theorem roundHalfEven_mul (c : Nat) {d : Nat} (hd : 0 < d) : roundHalfEven (c * d) d = c := by
  simp [roundHalfEven, Nat.mul_div_cancel c hd, hd]

theorem roundHalfEven_eq {n d t : Nat} (h₁ : 2 * n < 2 * (t * d) + d)
    (h₂ : 2 * (t * d) < 2 * n + d) : roundHalfEven n d = t := by
  have hd : 0 < d := by omega
  obtain ⟨near, near'⟩ := roundHalfEven_within n hd
  rcases Nat.lt_trichotomy (roundHalfEven n d) t with h | h | h
  · have := Nat.mul_le_mul_right d h
    rw [Nat.succ_mul] at this
    omega
  · exact h
  · have := Nat.mul_le_mul_right d h
    rw [Nat.succ_mul] at this
    omega

namespace Binary64

/-! ## Rounding to 53 bits -/

theorem log2_sub_le {m k : Nat} (h : m < 2 ^ (53 + k)) : Nat.log2 m - 52 ≤ k := by
  by_cases hm : m = 0
  · simp [hm]
  · have := (Nat.log2_lt hm).2 h
    omega

theorem roundUnits_within {n d k : Nat} (hd : 0 < d) (h : n < 2 ^ (53 + k) * d) :
    Within (roundUnits n d * d) n (d * 2 ^ k) := by
  have shift : Nat.log2 (n / d) - 52 ≤ k := log2_sub_le ((Nat.div_lt_iff_lt_mul hd).2 h)
  unfold roundUnits
  dsimp only
  generalize Nat.log2 (n / d) - 52 = s at shift
  simp only [Nat.shiftLeft_eq]
  have scaled : 0 < d * 2 ^ s := Nat.mul_pos hd (Nat.two_pow_pos s)
  have regroup (r : Nat) : r * 2 ^ s * d = r * (d * 2 ^ s) := by ring
  rw [regroup]
  apply (roundHalfEven_within n scaled).mono
  exact Nat.mul_le_mul_left d (Nat.pow_le_pow_right two_pos shift)

theorem roundUnits_mul_two_pow {n : Nat} (k : Nat) (h : n < 2 ^ 53) :
    roundUnits (n * 2 ^ k) 1 = n * 2 ^ k := by
  have small : n * 2 ^ k < 2 ^ (53 + k) := by
    rw [Nat.pow_add]
    exact Nat.mul_lt_mul_of_pos_right h (Nat.two_pow_pos k)
  have shift := log2_sub_le small
  unfold roundUnits
  dsimp only
  rw [Nat.div_one]
  generalize Nat.log2 (n * 2 ^ k) - 52 = s at shift
  rw [Nat.shiftLeft_eq, Nat.shiftLeft_eq, Nat.one_mul]
  have whole : n * 2 ^ k = n * 2 ^ (k - s) * 2 ^ s := by
    rw [Nat.mul_assoc, ← Nat.pow_add, Nat.sub_add_cancel shift]
  rw [whole, roundHalfEven_mul _ (Nat.two_pow_pos s)]

/-! ## Units -/

-- The exponent is kept as a variable throughout, since nothing is to compute such powers.
theorem unitsPerOne_eq {k : Nat} (hk : k = 1074) : unitsPerOne = 2 ^ k := by
  unfold unitsPerOne
  rw [← hk, Nat.one_shiftLeft]

theorem unitsPerOne_pos : 0 < unitsPerOne := by
  obtain ⟨k, hk⟩ : ∃ k, k = 1074 := ⟨_, rfl⟩
  rw [unitsPerOne_eq hk]
  exact Nat.two_pow_pos k

theorem le_maxUnits {u : Nat} (h : u ≤ 2 ^ 53 * unitsPerOne) : u ≤ maxUnits := by
  obtain ⟨k, hk⟩ : ∃ k, k = 1074 := ⟨_, rfl⟩
  rw [unitsPerOne_eq hk, ← Nat.pow_add] at h
  unfold maxUnits
  rw [Nat.shiftLeft_eq]
  have less : 53 + k ≤ 2045 := by omega
  generalize 2045 = e at less ⊢
  have pos : 0 < 1 <<< 53 - 1 := by decide
  exact (h.trans (Nat.pow_le_pow_right two_pos less)).trans (Nat.le_mul_of_pos_left _ pos)

/-- One rounding of a number below `2 ^ i` is off by half of `2 ^ (i - 53)` at most. -/
theorem roundUnits_error {n d : Nat} (i : Nat) (hd : 0 < d) (h : n < 2 ^ i * unitsPerOne * d) :
    Within (2 ^ 53 * (roundUnits n d * d)) (2 ^ 53 * n) (2 ^ i * unitsPerOne * d) := by
  obtain ⟨k, hk⟩ : ∃ k, k = 1074 := ⟨_, rfl⟩
  have power : 2 ^ i * unitsPerOne = 2 ^ (53 + (i + k - 53)) := by
    rw [unitsPerOne_eq hk, ← Nat.pow_add]
    congr 1
    omega
  rw [power] at h ⊢
  have near := roundUnits_within hd h
  rw [Nat.pow_add 2 53]
  generalize 2 ^ (i + k - 53) = p at near
  have regroup : 2 ^ 53 * p * d = 2 ^ 53 * (d * p) := by ring
  rw [regroup]
  unfold Within at near ⊢
  omega

theorem ofUnits_eq {n d : Nat} (h : roundUnits n d ≤ 2 ^ 53 * unitsPerOne) :
    ofUnits false n d = .finite false (roundUnits n d) := by
  unfold ofUnits
  exact if_pos (le_maxUnits h)

theorem ofNat_eq {n : Nat} (h : n < 2 ^ 53) : ofNat n = .finite false (n * unitsPerOne) := by
  obtain ⟨k, hk⟩ : ∃ k, k = 1074 := ⟨_, rfl⟩
  have whole : roundUnits (n * unitsPerOne) 1 = n * unitsPerOne := by
    rw [unitsPerOne_eq hk]
    exact roundUnits_mul_two_pow k h
  have small := Nat.mul_le_mul_right unitsPerOne h.le
  unfold ofNat ofRatio
  rw [ofUnits_eq (whole.trans_le small), whole]

theorem min_finite (m n : Nat) :
    (finite false m).min (finite false n) = .finite false (Nat.min m n) := by
  have order : (finite false n).lt (finite false m) = decide (n < m) := by
    simp [lt, signedUnits]
  unfold Binary64.min
  rw [order]
  by_cases h : n < m
  · have least : Nat.min m n = n := Nat.min_eq_right h.le
    simp [h, least]
  · have least : Nat.min m n = m := Nat.min_eq_left (Nat.le_of_not_lt h)
    simp [h, least, isNan]

end Binary64

/-! ## Nanoseconds -/

open Binary64

/-- So many units stand for so many nanoseconds, up to a quarter of one. -/
def Near (units nanos : Nat) : Prop :=
  4 * (units * nanosPerSecond) < 4 * (nanos * unitsPerOne) + unitsPerOne ∧
    4 * (nanos * unitsPerOne) < 4 * (units * nanosPerSecond) + unitsPerOne

theorem Near.lt {x y m n : Nat} (hx : Near x m) (hy : Near y n) (h : m < n) : x < y := by
  have step := Nat.mul_le_mul_right unitsPerOne h
  rw [Nat.succ_mul] at step
  obtain ⟨h₁, -⟩ := hx
  obtain ⟨-, h₂⟩ := hy
  refine Nat.lt_of_mul_lt_mul_right (a := nanosPerSecond) ?_
  omega

theorem Near.min {x y m n : Nat} (hx : Near x m) (hy : Near y n) :
    Near (Nat.min x y) (Nat.min m n) := by
  by_cases h : y < x
  · have less : n ≤ m := by
      by_contra hm
      exact Nat.lt_asymm h (hx.lt hy (Nat.lt_of_not_le hm))
    have least : Nat.min x y = y := Nat.min_eq_right h.le
    have least' : Nat.min m n = n := Nat.min_eq_right less
    rw [least, least']
    exact hy
  · have less : m ≤ n := by
      by_contra hn
      exact h (hy.lt hx (Nat.lt_of_not_le hn))
    have least : Nat.min x y = x := Nat.min_eq_left (Nat.le_of_not_lt h)
    have least' : Nat.min m n = m := Nat.min_eq_left less
    rw [least, least']
    exact hx

theorem Near.ofSecondsFloat? {x n : Nat} (h : Near x n) :
    Duration.ofSecondsFloat? (.finite false x) = Duration.ofNanos? n := by
  have nearest : roundHalfEven (x * nanosPerSecond) unitsPerOne = n := by
    obtain ⟨h₁, h₂⟩ := h
    apply roundHalfEven_eq <;> omega
  have positive : ¬ (false && decide (x ≠ 0)) = true := by simp
  unfold Duration.ofSecondsFloat?
  dsimp only
  rw [if_neg positive, nearest]

end MarketFeed
