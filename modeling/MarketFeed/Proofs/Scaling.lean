import Mathlib
import MarketFeed.Binary64.Numeral
import MarketFeed.Proofs.Literals
import MarketFeed.Proofs.Rounding

/-!
# Scaling by powers of ten

A significand is scaled in three roundings: its own, that of the power of ten, and that of their
product or quotient. The result is always finite. Where significand and power are doubles already,
only the last rounding is left, and the result is the double nearest to the decimal.
-/

namespace MarketFeed

theorem roundHalfEven_le_of_le {n d c : Nat} (hd : 0 < d) (h : n ≤ c * d) :
    roundHalfEven n d ≤ c := by
  obtain rfl | less := h.eq_or_lt
  · exact (roundHalfEven_mul c hd).le
  · have below : n / d < c := (Nat.div_lt_iff_lt_mul hd).2 less
    exact (roundHalfEven_le n d).trans below

theorem roundHalfEven_mul_right (n d : Nat) {c : Nat} (hc : 0 < c) :
    roundHalfEven (n * c) (d * c) = roundHalfEven n d := by
  have below : 2 * (n % d * c) < d * c ↔ 2 * (n % d) < d := by
    rw [← Nat.mul_assoc]
    exact Nat.mul_lt_mul_right hc
  have above : d * c < 2 * (n % d * c) ↔ d < 2 * (n % d) := by
    rw [← Nat.mul_assoc]
    exact Nat.mul_lt_mul_right hc
  unfold roundHalfEven
  rw [Nat.mul_div_mul_right _ _ hc, Nat.mul_mod_mul_right]
  simp only [below, above]

namespace Binary64

/-! ## Bounds of a rounding -/

theorem roundUnits_mul_right (n d : Nat) {c : Nat} (hc : 0 < c) :
    roundUnits (n * c) (d * c) = roundUnits n d := by
  unfold roundUnits
  rw [Nat.mul_div_mul_right _ _ hc]
  dsimp only
  generalize Nat.log2 (n / d) - 52 = s
  have moved : (d * c) <<< s = d <<< s * c := by
    rw [Nat.shiftLeft_eq, Nat.shiftLeft_eq, Nat.mul_right_comm]
  rw [moved, roundHalfEven_mul_right _ _ hc]

theorem roundUnits_le {n d c k : Nat} (hd : 0 < d) (hc : c < 2 ^ 53) (h : n ≤ c * 2 ^ k * d) :
    roundUnits n d ≤ c * 2 ^ k := by
  have quotient : n / d < 2 ^ (53 + k) := by
    apply ((Nat.div_le_div_right h).trans_eq (Nat.mul_div_cancel _ hd)).trans_lt
    rw [Nat.pow_add]
    exact Nat.mul_lt_mul_of_pos_right hc (Nat.two_pow_pos k)
  have shift := log2_sub_le quotient
  unfold roundUnits
  dsimp only
  generalize Nat.log2 (n / d) - 52 = s at shift
  rw [Nat.shiftLeft_eq, Nat.shiftLeft_eq]
  have power : 2 ^ k = 2 ^ (k - s) * 2 ^ s := by rw [← Nat.pow_add, Nat.sub_add_cancel shift]
  rw [power, ← Nat.mul_assoc]
  apply Nat.mul_le_mul_right
  apply roundHalfEven_le_of_le (Nat.mul_pos hd (Nat.two_pow_pos s))
  apply h.trans_eq
  rw [power]
  ring

theorem le_roundUnits {n d k : Nat} (hd : 0 < d) (h : 2 ^ k * d ≤ n) : 2 ^ k ≤ roundUnits n d := by
  have quotient : 2 ^ k ≤ n / d := (Nat.le_div_iff_mul_le hd).2 h
  have positive : n / d ≠ 0 := (Nat.lt_of_lt_of_le (Nat.two_pow_pos k) quotient).ne'
  unfold roundUnits
  dsimp only
  by_cases small : Nat.log2 (n / d) ≤ 52
  · rw [Nat.sub_eq_zero_of_le small, Nat.shiftLeft_zero, Nat.shiftLeft_zero]
    exact quotient.trans (le_roundHalfEven n d)
  · obtain ⟨s, hs⟩ := Nat.exists_eq_add_of_le (Nat.le_of_not_le small)
    have magnitude : 2 ^ (52 + s) ≤ n / d := hs ▸ Nat.log2_self_le positive
    have exponent : k ≤ 52 + s := by
      rw [← hs]
      exact (Nat.le_log2 positive).2 quotient
    rw [hs, Nat.add_sub_cancel_left, Nat.shiftLeft_eq, Nat.shiftLeft_eq]
    apply (Nat.pow_le_pow_right two_pos exponent).trans
    rw [Nat.pow_add]
    apply Nat.mul_le_mul_right
    apply le_trans _ (le_roundHalfEven ..)
    rw [← Nat.div_div_eq_div_mul, Nat.le_div_iff_mul_le (Nat.two_pow_pos s), ← Nat.pow_add]
    exact magnitude

/-! ## Finite results -/

theorem maxUnits_eq {k : Nat} (hk : k = 2045) : maxUnits = (2 ^ 53 - 1) * 2 ^ k := by
  unfold maxUnits
  rw [← hk, Nat.shiftLeft_eq, Nat.one_shiftLeft]

theorem ofUnits_finite {n d : Nat} (negative : Bool) (hd : 0 < d) (h : n ≤ maxUnits * d) :
    ofUnits negative n d = .finite negative (roundUnits n d) := by
  obtain ⟨k, hk⟩ : ∃ k, k = 2045 := ⟨_, rfl⟩
  rw [maxUnits_eq hk] at h
  have fits := roundUnits_le hd (by omega) h
  rw [← maxUnits_eq hk] at fits
  exact if_pos fits

def Small : Binary64 → Prop
  | .finite _ units => units ≤ 2 ^ 64 * unitsPerOne
  | _ => False

theorem Small.isFinite {x : Binary64} (h : x.Small) : x.isFinite = true := by
  cases x with
  | finite => rfl
  | nan | infinite => exact h.elim

theorem Small.neg {x : Binary64} (h : x.Small) : x.neg.Small := by
  cases x with
  | finite => exact h
  | nan | infinite => exact h.elim

theorem mul_unitsPerOne_le_maxUnits {c : Nat} (h : c ≤ 2 ^ 200) : c * unitsPerOne ≤ maxUnits := by
  obtain ⟨k, hk⟩ : ∃ k, k = 1074 := ⟨_, rfl⟩
  obtain ⟨l, hl⟩ : ∃ l, l = 2045 := ⟨_, rfl⟩
  rw [unitsPerOne_eq hk, maxUnits_eq hl]
  calc c * 2 ^ k ≤ 2 ^ 200 * 2 ^ k := Nat.mul_le_mul_right _ h
    _ = 2 ^ (200 + k) := (Nat.pow_add ..).symm
    _ ≤ 2 ^ l := Nat.pow_le_pow_right two_pos (by omega)
    _ ≤ (2 ^ 53 - 1) * 2 ^ l := Nat.le_mul_of_pos_left _ (by decide)

theorem ofUnits_small {n d : Nat} (negative : Bool) (hd : 0 < d)
    (h : n ≤ 2 ^ 64 * unitsPerOne * d) : (ofUnits negative n d).Small := by
  have fits := mul_unitsPerOne_le_maxUnits (c := 2 ^ 64) (Nat.pow_le_pow_right two_pos (by decide))
  rw [ofUnits_finite negative hd (h.trans (Nat.mul_le_mul_right d fits))]
  obtain ⟨k, hk⟩ : ∃ k, k = 1074 := ⟨_, rfl⟩
  have power : 2 ^ 64 * unitsPerOne = 1 * 2 ^ (64 + k) := by
    rw [unitsPerOne_eq hk, ← Nat.pow_add, Nat.one_mul]
  show roundUnits n d ≤ 2 ^ 64 * unitsPerOne
  rw [power] at h ⊢
  exact roundUnits_le hd (by decide) h

theorem ofNat_small {n : Nat} (h : n ≤ 2 ^ 64) : (ofNat n).Small := by
  apply ofUnits_small _ Nat.one_pos
  rw [Nat.mul_one]
  exact Nat.mul_le_mul_right _ h

theorem ofInt_small {i : Int} (h : i.natAbs ≤ 2 ^ 64) : (ofInt i).Small := by
  apply ofUnits_small _ Nat.one_pos
  rw [Nat.mul_one]
  exact Nat.mul_le_mul_right _ h

theorem Small.div_ofNat {x : Binary64} (h : x.Small) {n : Nat} (hn : 0 < n) :
    (x.div (ofNat n)).Small := by
  cases x with
  | nan | infinite => exact h.elim
  | finite negative m =>
    obtain ⟨k, hk⟩ : ∃ k, k = 1074 := ⟨_, rfl⟩
    have one : unitsPerOne ≤ roundUnits (n * unitsPerOne) 1 := by
      rw [unitsPerOne_eq hk]
      apply le_roundUnits Nat.one_pos
      rw [Nat.mul_one]
      exact Nat.le_mul_of_pos_left _ hn
    have positive : 0 < roundUnits (n * unitsPerOne) 1 := unitsPerOne_pos.trans_le one
    unfold ofNat ofRatio ofUnits
    dsimp only
    split
    · show Small (if _ = 0 then _ else ofUnits _ _ _)
      rw [if_neg positive.ne']
      apply ofUnits_small _ positive
      exact Nat.mul_le_mul h one
    · exact Nat.zero_le _

/-! ## Exact operands -/

def Exact (n : Nat) : Prop := ∃ m k, m < 2 ^ 53 ∧ k ≤ 64 ∧ n = m * 2 ^ k

theorem Exact.of_lt {n : Nat} (h : n < 2 ^ 53) : Exact n := ⟨n, 0, h, by omega, by omega⟩

theorem Exact.ten_pow {k : Nat} (h : k ≤ 22) : Exact (10 ^ k) := by
  refine ⟨5 ^ k, k, ?_, by omega, ?_⟩
  · exact (Nat.pow_le_pow_right (by omega) h).trans_lt (by decide)
  · rw [← Nat.mul_pow]

theorem Exact.ofNat_eq {n : Nat} (h : Exact n) : ofNat n = .finite false (n * unitsPerOne) := by
  obtain ⟨k, hk⟩ : ∃ k, k = 1074 := ⟨_, rfl⟩
  obtain ⟨m, j, small, hj, rfl⟩ := h
  have whole : roundUnits (m * 2 ^ j * unitsPerOne) 1 = m * 2 ^ j * unitsPerOne := by
    rw [unitsPerOne_eq hk, Nat.mul_assoc, ← Nat.pow_add]
    exact roundUnits_mul_two_pow _ small
  have size : m * 2 ^ j ≤ 2 ^ 200 :=
    calc m * 2 ^ j ≤ 2 ^ 53 * 2 ^ 64 :=
          Nat.mul_le_mul small.le (Nat.pow_le_pow_right two_pos hj)
      _ ≤ 2 ^ 200 := by decide
  have fits := mul_unitsPerOne_le_maxUnits size
  unfold ofNat ofRatio
  rw [ofUnits_finite false Nat.one_pos (by rwa [Nat.mul_one]), whole]

theorem Exact.mul_ofNat {m n : Nat} (hm : Exact m) (hn : Exact n) :
    (ofNat m).mul (ofNat n) = ofRatio false (m * n) 1 := by
  have units : m * unitsPerOne * (n * unitsPerOne) = m * n * unitsPerOne * unitsPerOne := by ring
  have cancel := roundUnits_mul_right (m * n * unitsPerOne) 1 unitsPerOne_pos
  rw [Nat.one_mul] at cancel
  rw [hm.ofNat_eq, hn.ofNat_eq]
  show ofUnits false (m * unitsPerOne * (n * unitsPerOne)) unitsPerOne = _
  unfold ofRatio ofUnits
  rw [units, cancel]

theorem Exact.div_ofNat {m n : Nat} (hm : Exact m) (hn : Exact n) (positive : 0 < n) :
    (ofNat m).div (ofNat n) = ofRatio false m n := by
  rw [hm.ofNat_eq, hn.ofNat_eq]
  show (if n * unitsPerOne = 0 then _ else ofUnits _ _ _) = _
  rw [if_neg (Nat.mul_pos positive unitsPerOne_pos).ne']
  unfold ofRatio ofUnits
  rw [roundUnits_mul_right _ _ unitsPerOne_pos]
  rfl

theorem ofRatio_neg (n d : Nat) : (ofRatio false n d).neg = ofRatio true n d := by
  unfold ofRatio ofUnits
  dsimp only
  split_ifs <;> rfl

theorem ofDecimal_neg (digits : Nat) (exponent : Int) :
    (ofDecimal false digits exponent).neg = ofDecimal true digits exponent := by
  unfold ofDecimal
  split_ifs
  · rfl
  · rfl
  · exact ofRatio_neg ..
  · rfl
  · exact ofRatio_neg ..

theorem ofDecimal_eq {digits : Nat} {exponent : Int} (h : exponent.natAbs ≤ 22) :
    ofDecimal false digits exponent =
      if 0 ≤ exponent then ofRatio false (digits * 10 ^ exponent.toNat) 1
      else ofRatio false digits (10 ^ (-exponent).toNat) := by
  have zero (d : Nat) : ofRatio false 0 d = .finite false 0 := by
    unfold ofRatio ofUnits roundUnits
    simp [roundHalfEven]
  unfold ofDecimal
  split_ifs with empty whole large whole' tiny
  · rw [empty, Nat.zero_mul, zero]
  · rw [empty, zero]
  · omega
  · omega
  · rfl
  · omega
  · rfl

end Binary64

namespace Json

open Binary64

theorem scaleDown_small (fuel : Nat) {x : Binary64} (h : x.Small) (power : Int) :
    (scaleDown fuel x power).Small := by
  induction fuel generalizing x power with
  | zero => exact h.div_ofNat (Nat.pow_pos (by omega))
  | succ fuel ih =>
    unfold scaleDown
    split_ifs
    · exact h.div_ofNat (Nat.pow_pos (by omega))
    · exact h
    · apply ih
      apply h.div_ofNat
      apply Nat.pow_pos
      omega

theorem scale?_finite {significand : Nat} (h : significand ≤ maxSignificand) {power : Int}
    {x : Binary64} (hx : scale? significand power = some x) : x.isFinite = true := by
  have small : (Binary64.ofNat significand).Small :=
    ofNat_small (h.trans (by decide))
  unfold scale? at hx
  dsimp only at hx
  split_ifs at hx with negative large zero finite
  · cases hx
    exact (scaleDown_small _ small power).isFinite
  · cases hx
    exact small.isFinite
  · cases hx
    exact finite

theorem gather_le (significand : Nat) (h : significand ≤ maxSignificand) (cs : List Char) :
    (gather significand cs).1 ≤ maxSignificand := by
  induction cs generalizing significand with
  | nil => exact h
  | cons c cs ih =>
    unfold gather
    dsimp only
    split_ifs with next
    · exact ih _ next
    · exact h

/-- Where significand and power of ten are doubles, scaling gives the nearest double. -/
theorem scale?_eq {significand : Nat} (hs : Exact significand) (h : significand ≤ maxSignificand)
    {power : Int} (hp : power.natAbs ≤ 22) :
    scale? significand power = some (ofDecimal false significand power) := by
  rw [ofDecimal_eq hp]
  unfold scale?
  dsimp only
  by_cases negative : power < 0
  · have fuel : (-power).toNat / 308 = 0 := by omega
    have exact := Exact.ten_pow (k := (-power).toNat) (by omega)
    rw [if_pos negative, if_neg (by omega), fuel]
    unfold scaleDown
    rw [Nat.pow_eq, hs.div_ofNat exact (Nat.pow_pos (by omega))]
  · have exact := Exact.ten_pow (k := power.toNat) (by omega)
    have size : significand * 10 ^ power.toNat ≤ 2 ^ 200 :=
      calc significand * 10 ^ power.toNat ≤ maxSignificand * 10 ^ 22 :=
            Nat.mul_le_mul h (Nat.pow_le_pow_right (by omega) (by omega))
        _ ≤ 2 ^ 200 := by decide
    have fits := mul_unitsPerOne_le_maxUnits size
    have finite : (ofRatio false (significand * 10 ^ power.toNat) 1).isFinite = true := by
      unfold ofRatio
      rw [ofUnits_finite false Nat.one_pos (by rwa [Nat.mul_one])]
      rfl
    rw [if_neg negative, if_neg (by omega), Nat.pow_eq, hs.mul_ofNat exact, if_pos finite,
      if_pos (by omega)]

end Json

end MarketFeed
