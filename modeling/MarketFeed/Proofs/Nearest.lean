import Mathlib
import MarketFeed.Proofs.Scaling

/-!
# Nearest doubles

No double is nearer to a ratio, or to the number that a literal spells, than the one that a single
rounding gives.
-/

namespace MarketFeed

theorem roundHalfEven_nearest (n : Nat) {d : Nat} (hd : 0 < d) (m : Nat) :
    (((roundHalfEven n d * d : Nat) : Int) - n).natAbs ≤ (((m * d : Nat) : Int) - n).natAbs := by
  obtain ⟨h₁, h₂⟩ := roundHalfEven_within n hd
  rcases Nat.lt_trichotomy m (roundHalfEven n d) with less | rfl | greater
  · have := Nat.mul_le_mul_right d less
    rw [Nat.succ_mul] at this
    omega
  · exact le_rfl
  · have := Nat.mul_le_mul_right d greater
    rw [Nat.succ_mul] at this
    omega

theorem roundHalfEven_mono {n m d : Nat} (hd : 0 < d) (h : n ≤ m) :
    roundHalfEven n d ≤ roundHalfEven m d := by
  have near := roundHalfEven_nearest n hd (roundHalfEven m d)
  have near' := roundHalfEven_nearest m hd (roundHalfEven n d)
  by_contra less
  have apart := Nat.mul_lt_mul_of_pos_right (Nat.lt_of_not_le less) hd
  have same : n = m := by omega
  exact less (same ▸ le_rfl)

namespace Binary64

/-- So many units are the magnitude of a double, up to its range. -/
def IsMagnitude (units : Nat) : Prop := ∃ c k, c < 2 ^ 53 ∧ units = c * 2 ^ k

theorem roundUnits_nearest {n d u : Nat} (hd : 0 < d) (hu : IsMagnitude u) :
    (((roundUnits n d * d : Nat) : Int) - n).natAbs ≤ (((u * d : Nat) : Int) - n).natAbs := by
  -- Among the multiples of a power of two the rounding finds the nearest. A double that is no such
  -- multiple lies below the least quotient of that many bits, which is one.
  have multiple (s m : Nat) :
      (((roundHalfEven n (d * 2 ^ s) * 2 ^ s * d : Nat) : Int) - n).natAbs ≤
        (((m * 2 ^ s * d : Nat) : Int) - n).natAbs := by
    have near := roundHalfEven_nearest n (Nat.mul_pos hd (Nat.two_pow_pos s)) m
    have regroup (a : Nat) : a * 2 ^ s * d = a * (d * 2 ^ s) := by ring
    rwa [regroup, regroup]
  obtain ⟨c, k, small, rfl⟩ := hu
  unfold roundUnits
  dsimp only
  rw [Nat.shiftLeft_eq, Nat.shiftLeft_eq]
  by_cases few : Nat.log2 (n / d) ≤ 52
  · rw [Nat.sub_eq_zero_of_le few]
    simpa using multiple 0 (c * 2 ^ k)
  · obtain ⟨s, hs⟩ := Nat.exists_eq_add_of_le (Nat.le_of_not_le few)
    rw [hs, Nat.add_sub_cancel_left]
    by_cases coarse : s ≤ k
    · have power : c * 2 ^ k = c * 2 ^ (k - s) * 2 ^ s := by
        rw [Nat.mul_assoc, ← Nat.pow_add, Nat.sub_add_cancel coarse]
      rw [power]
      exact multiple s _
    · have positive : n / d ≠ 0 := by
        intro zero
        rw [zero] at few
        exact few (by decide)
      have least : 2 ^ 52 * 2 ^ s * d ≤ n := by
        rw [← Nat.pow_add, ← hs]
        exact (Nat.le_div_iff_mul_le hd).1 (Nat.log2_self_le positive)
      have below : c * 2 ^ k ≤ 2 ^ 52 * 2 ^ s := by
        calc c * 2 ^ k ≤ 2 ^ 53 * 2 ^ k := Nat.mul_le_mul_right _ small.le
          _ = 2 ^ 52 * 2 ^ (k + 1) := by rw [Nat.pow_succ]; ring
          _ ≤ 2 ^ 52 * 2 ^ s :=
            Nat.mul_le_mul_left _ (Nat.pow_le_pow_right two_pos (by omega))
      have scaled := Nat.mul_le_mul_right d below
      have near := multiple s (2 ^ 52)
      omega

theorem IsMagnitude.le_roundUnits {n d u : Nat} (hu : IsMagnitude u) (hd : 0 < d) (h : u * d ≤ n) :
    u ≤ roundUnits n d := by
  have near := roundUnits_nearest (n := n) hd hu
  apply Nat.le_of_mul_le_mul_right _ hd
  omega

theorem isMagnitude_zero : IsMagnitude 0 := ⟨0, 0, by decide, rfl⟩

theorem isMagnitude_mul_two_pow {c : Nat} (h : c ≤ 2 ^ 53) (k : Nat) : IsMagnitude (c * 2 ^ k) := by
  obtain rfl | less := h.eq_or_lt
  · refine ⟨2 ^ 52, k + 1, by decide, ?_⟩
    rw [Nat.pow_succ 2 k]
    ring
  · exact ⟨c, k, less, rfl⟩

theorem roundUnits_isMagnitude (n : Nat) {d : Nat} (hd : 0 < d) : IsMagnitude (roundUnits n d) := by
  unfold roundUnits
  dsimp only
  obtain ⟨s, hs⟩ : ∃ s, s = Nat.log2 (n / d) - 52 := ⟨_, rfl⟩
  have below : n / d < 2 ^ (53 + s) := Nat.lt_log2_self.trans_le (Nat.pow_le_pow_right two_pos (by omega))
  rw [← hs, Nat.shiftLeft_eq, Nat.shiftLeft_eq]
  apply isMagnitude_mul_two_pow
  apply roundHalfEven_le_of_le (Nat.mul_pos hd (Nat.two_pow_pos s))
  have bits := (Nat.div_lt_iff_lt_mul hd).1 below
  rw [Nat.pow_add] at bits
  linarith

theorem IsMagnitude.roundUnits_eq {m d : Nat} (h : IsMagnitude m) (hd : 0 < d) :
    roundUnits (m * d) d = m := by
  obtain ⟨c, k, small, rfl⟩ := h
  have scaled := roundUnits_mul_right (c * 2 ^ k) 1 hd
  rw [Nat.one_mul] at scaled
  rw [scaled, roundUnits_mul_two_pow k small]

theorem roundUnits_mono {n m d : Nat} (hd : 0 < d) (h : n ≤ m) : roundUnits n d ≤ roundUnits m d := by
  have near := roundUnits_nearest (n := n) hd (roundUnits_isMagnitude m hd)
  have near' := roundUnits_nearest (n := m) hd (roundUnits_isMagnitude n hd)
  by_contra less
  have apart := Nat.mul_lt_mul_of_pos_right (Nat.lt_of_not_le less) hd
  have same : n = m := by omega
  exact less (same ▸ le_rfl)

theorem IsMagnitude.roundUnits_le {n d u : Nat} (hu : IsMagnitude u) (hd : 0 < d) (h : n ≤ u * d) :
    roundUnits n d ≤ u := by
  obtain ⟨c, k, small, rfl⟩ := hu
  exact Binary64.roundUnits_le hd small h

/-! ## Ratios -/

def signed (negative : Bool) (q : ℚ) : ℚ := if negative then -q else q

def toRat : Binary64 → ℚ
  | .finite negative units => signed negative (units / unitsPerOne)
  | _ => 0

def IsDouble : Binary64 → Prop
  | .finite _ units => IsMagnitude units
  | _ => False

def IsNearest (x : Binary64) (q : ℚ) : Prop :=
  ∀ y : Binary64, y.IsDouble → |x.toRat - q| ≤ |y.toRat - q|

theorem isNearest_signed {u : Nat} {q : ℚ} (negative : Bool) (hq : 0 ≤ q)
    (h : ∀ v, IsMagnitude v → |(u : ℚ) / unitsPerOne - q| ≤ |(v : ℚ) / unitsPerOne - q|) :
    (finite negative u).IsNearest (signed negative q) := by
  have same (b : Bool) (x y : ℚ) : |signed b x - signed b y| = |x - y| := by
    cases b
    · rfl
    · show |-x - -y| = |x - y|
      rw [neg_sub_neg, abs_sub_comm]
  intro y hy
  cases y with
  | nan | infinite => exact hy.elim
  | finite b v =>
    show |signed negative _ - _| ≤ |signed b _ - _|
    by_cases sign : b = negative
    · rw [sign, same, same]
      exact h v hy
    · have magnitude : (0 : ℚ) ≤ v / unitsPerOne := by positivity
      have zero := h 0 ⟨0, 0, by decide, rfl⟩
      rw [Nat.cast_zero, zero_div, zero_sub, abs_neg, abs_of_nonneg hq] at zero
      have apart : |signed b (v / unitsPerOne) - signed negative q| = v / unitsPerOne + q := by
        have opposite : b = !negative := by cases b <;> cases negative <;> simp_all
        rw [← abs_of_nonneg (add_nonneg magnitude hq), opposite]
        cases negative
        · show |-(v / unitsPerOne : ℚ) - q| = _
          rw [← abs_neg]
          congr 1
          ring
        · show |(v / unitsPerOne : ℚ) - -q| = _
          rw [sub_neg_eq_add]
      rw [same, apart]
      linarith

theorem roundUnits_ratio_nearest (n : Nat) {d u : Nat} (hd : 0 < d) (hu : IsMagnitude u) :
    |(roundUnits (n * unitsPerOne) d : ℚ) / unitsPerOne - n / d| ≤ |(u : ℚ) / unitsPerOne - n / d| := by
  have near := roundUnits_nearest (n := n * unitsPerOne) hd hu
  have unit : (0 : ℚ) < unitsPerOne := by exact_mod_cast unitsPerOne_pos
  have den : (0 : ℚ) < d := by exact_mod_cast hd
  have scale (x : Nat) : |(x : ℚ) / unitsPerOne - n / d| =
      ((((x * d : Nat) : Int) - (n * unitsPerOne : Nat)).natAbs : ℚ) / (unitsPerOne * d) := by
    rw [Nat.cast_natAbs, Int.cast_abs, ← abs_of_pos (mul_pos unit den), ← abs_div]
    congr 1
    push_cast
    field_simp
  rw [scale, scale]
  apply div_le_div_of_nonneg_right _ (mul_pos unit den).le
  exact_mod_cast near

theorem ofRatio_nearest {negative : Bool} {n d : Nat} (hd : 0 < d)
    (h : (ofRatio negative n d).isFinite = true) :
    (ofRatio negative n d).IsNearest (signed negative (n / d)) := by
  have nonnegative : (0 : ℚ) ≤ n / d := by positivity
  unfold ofRatio ofUnits at h ⊢
  dsimp only at h ⊢
  split_ifs at h ⊢
  · apply isNearest_signed negative nonnegative
    intro v hv
    exact roundUnits_ratio_nearest n hd hv
  · cases h

/-! ## Decimals -/

theorem lt_ten_pow_length (n : Nat) : n < 10 ^ (Nat.repr n).length := by
  have digits : (Nat.repr n).length = (Nat.toDigits 10 n).length := by
    rw [Nat.repr_eq_ofList_toDigits, String.length_ofList]
  rw [digits]
  exact (Nat.length_toDigits_le_iff (by omega) Nat.length_toDigits_pos).1 le_rfl

theorem zero_nearest {q : ℚ} (negative : Bool) (hq : 0 ≤ q) (h : 2 * unitsPerOne * q ≤ 1) :
    (finite negative 0).IsNearest (signed negative q) := by
  have unit : (0 : ℚ) < unitsPerOne := by exact_mod_cast unitsPerOne_pos
  apply isNearest_signed negative hq
  intro v _
  rw [Nat.cast_zero, zero_div, zero_sub, abs_neg, abs_of_nonneg hq]
  obtain rfl | positive := Nat.eq_zero_or_pos v
  · rw [Nat.cast_zero, zero_div, zero_sub, abs_neg, abs_of_nonneg hq]
  · have whole : (1 : ℚ) ≤ v := by exact_mod_cast positive
    have far : 2 * q ≤ v / unitsPerOne := by
      rw [le_div_iff₀ unit]
      linarith
    apply le_trans _ (le_abs_self _)
    linarith

theorem unitsPerOne_le_ten_pow : 2 * unitsPerOne ≤ 10 ^ 400 := by
  obtain ⟨k, hk⟩ : ∃ k, k = 1074 := ⟨_, rfl⟩
  obtain ⟨j, hj⟩ : ∃ j, j = 400 := ⟨_, rfl⟩
  rw [unitsPerOne_eq hk, ← hj]
  calc 2 * 2 ^ k = 2 ^ (k + 1) := by rw [Nat.pow_succ, Nat.mul_comm]
    _ ≤ 2 ^ (3 * j) := Nat.pow_le_pow_right two_pos (by omega)
    _ = (2 ^ 3) ^ j := Nat.pow_mul ..
    _ ≤ 10 ^ j := Nat.pow_le_pow_left (by decide) j

/-- Reading a decimal gives the nearest double, also where its power is not expanded. -/
theorem ofDecimal_nearest {negative : Bool} {digits : Nat} {exponent : Int}
    (h : (ofDecimal negative digits exponent).isFinite = true) :
    (ofDecimal negative digits exponent).IsNearest
      (signed negative (digits * (10 : ℚ) ^ exponent)) := by
  unfold ofDecimal at h ⊢
  split_ifs at h ⊢ with empty large whole tiny
  · rw [empty, Nat.cast_zero, zero_mul]
    exact zero_nearest negative le_rfl (by simp)
  · cases h
  · have power : (10 : ℚ) ^ exponent = ((10 ^ exponent.toNat : Nat) : ℚ) := by
      conv_lhs => rw [← Int.toNat_of_nonneg whole]
      push_cast
      exact zpow_natCast ..
    have near := ofRatio_nearest Nat.one_pos h
    rw [Nat.cast_one, div_one, Nat.cast_mul, Nat.pow_eq, ← power] at near
    exact near
  · have ten : (1 : ℚ) ≤ 10 := by norm_num
    have unit : (2 * unitsPerOne : ℚ) ≤ (10 : ℚ) ^ (400 : Int) := by
      exact_mod_cast unitsPerOne_le_ten_pow
    have size : (digits : ℚ) ≤ (10 : ℚ) ^ ((Nat.repr digits).length : Int) := by
      exact_mod_cast (lt_ten_pow_length digits).le
    have nonnegative : (0 : ℚ) ≤ digits * (10 : ℚ) ^ exponent := by positivity
    apply zero_nearest negative nonnegative
    generalize (Nat.repr digits).length = len at tiny size
    calc (2 * unitsPerOne : ℚ) * (digits * (10 : ℚ) ^ exponent)
        ≤ (10 : ℚ) ^ (400 : Int) * ((10 : ℚ) ^ (len : Int) * (10 : ℚ) ^ exponent) := by gcongr
      _ = (10 : ℚ) ^ (400 + (len + exponent)) := by
          rw [zpow_add₀ (by norm_num), zpow_add₀ (by norm_num)]
      _ ≤ (10 : ℚ) ^ (0 : Int) := zpow_le_zpow_right₀ ten (by omega)
      _ = 1 := zpow_zero _
  · have power : (10 : ℚ) ^ exponent = (((10 ^ (-exponent).toNat : Nat) : ℚ))⁻¹ := by
      have negated : exponent = -((-exponent).toNat : Int) := by omega
      conv_lhs => rw [negated]
      push_cast
      rw [zpow_neg, zpow_natCast]
    have near := ofRatio_nearest (Nat.pow_pos (by omega)) h
    rw [div_eq_mul_inv, ← power] at near
    exact near

end Binary64

end MarketFeed
