import Mathlib
import MarketFeed.Proofs.Held

/-!
# Integers of 64 bits

A field that is read as an integer of 64 bits is cut toward zero, and what lies outside the range
gives the default. The greatest integer is no double, so the range ends at `2 ^ 63` where doubles are
compared. That double is cut to the greatest integer, and so is every quantity that is rounded to it.
-/

namespace MarketFeed

/-! ## Cutting toward zero -/

def towardZero (q : ℚ) : Int := if 0 ≤ q then ⌊q⌋ else ⌈q⌉

@[simp]
theorem towardZero_intCast (i : Int) : towardZero i = i := by
  simp [towardZero]

theorem le_towardZero {i : Int} {q : ℚ} (h : (i : ℚ) ≤ q) : i ≤ towardZero q := by
  unfold towardZero
  split_ifs
  · exact Int.le_floor.2 h
  · exact_mod_cast h.trans (Int.le_ceil q)

theorem towardZero_le {i : Int} {q : ℚ} (h : q ≤ i) : towardZero q ≤ i := by
  unfold towardZero
  split_ifs
  · exact_mod_cast (Int.floor_le q).trans h
  · exact Int.ceil_le.2 h

theorem towardZero_lt {i : Int} (positive : 0 < i) {q : ℚ} (h : q < i) : towardZero q < i := by
  unfold towardZero
  split_ifs with sign
  · exact Int.floor_lt.2 h
  · have : ⌈q⌉ ≤ 0 := Int.ceil_le.2 (by simpa using (not_le.1 sign).le)
    omega

theorem minInt64_eq : minInt64 = -2 ^ 63 := by decide

theorem maxInt64_eq : maxInt64 = 2 ^ 63 - 1 := by decide

def truncated? (q : ℚ) : Option Int :=
  if minInt64 ≤ towardZero q ∧ towardZero q ≤ maxInt64 then some (towardZero q) else none

theorem truncated?_within {q : ℚ} (h : -2 ^ 63 ≤ q) (h' : q < 2 ^ 63) :
    truncated? q = some (towardZero q) := by
  have low : -2 ^ 63 ≤ towardZero q := le_towardZero (by exact_mod_cast h)
  have high : towardZero q < 2 ^ 63 := towardZero_lt (by decide) (by exact_mod_cast h')
  rw [truncated?, minInt64_eq, maxInt64_eq, if_pos]
  omega

theorem truncated?_above {q : ℚ} (h : 2 ^ 63 ≤ q) : truncated? q = none := by
  have high : 2 ^ 63 ≤ towardZero q := le_towardZero (by exact_mod_cast h)
  rw [truncated?, maxInt64_eq, if_neg]
  omega

theorem truncated?_below {q : ℚ} (h : q ≤ -2 ^ 63 - 1) : truncated? q = none := by
  have low : towardZero q ≤ -2 ^ 63 - 1 := towardZero_le (by exact_mod_cast h)
  rw [truncated?, minInt64_eq, if_neg]
  omega

theorem truncated?_intCast (i : Int) :
    truncated? i = if minInt64 ≤ i ∧ i ≤ maxInt64 then some i else none := by
  simp [truncated?]

namespace Binary64

/-! ## Doubles as numbers -/

theorem toRat_finite (s : Bool) (m : Nat) :
    (finite s m).toRat = (signedUnits s m : ℚ) / unitsPerOne := by
  cases s <;> simp [toRat, signed, signedUnits, neg_div]

theorem toRat_whole (s : Bool) (n : Nat) : (finite s (n * unitsPerOne)).toRat = signed s n := by
  have unit : (unitsPerOne : ℚ) ≠ 0 := by exact_mod_cast unitsPerOne_pos.ne'
  show signed s (_ / _) = _
  rw [Nat.cast_mul, mul_div_cancel_right₀ _ unit]

theorem le_iff_toRat {x y : Binary64} (hx : x.isFinite = true) (hy : y.isFinite = true) :
    x.le y = true ↔ x.toRat ≤ y.toRat := by
  have positive : (0 : ℚ) < unitsPerOne := by exact_mod_cast unitsPerOne_pos
  cases x with
  | nan | infinite => cases hx
  | finite s m =>
    cases y with
    | nan | infinite => cases hy
    | finite t n =>
      rw [toRat_finite, toRat_finite, div_le_div_iff_of_pos_right positive, Int.cast_le]
      simp [le, lt, eq, le_iff_lt_or_eq]

theorem truncate_finite {x : Binary64} (h : x.isFinite = true) :
    x.truncate = some (towardZero x.toRat) := by
  cases x with
  | nan | infinite => cases h
  | finite s m =>
    have whole : ⌊(m : ℚ) / unitsPerOne⌋ = (m / unitsPerOne : Nat) := by
      rw [← Int.natCast_floor_eq_floor (by positivity), Nat.floor_div_eq_div]
    cases s with
    | false =>
      have sign : (0 : ℚ) ≤ m / unitsPerOne := by positivity
      simp [truncate, toRat, signed, towardZero, sign, whole]
    | true =>
      show some (-((m / unitsPerOne : Nat) : Int)) = some (towardZero (-(m / unitsPerOne : ℚ)))
      unfold towardZero
      split_ifs with sign
      · have zero : (m : ℚ) / unitsPerOne = 0 := le_antisymm (by linarith) (by positivity)
        rw [← whole, zero]
        simp
      · rw [Int.ceil_neg, whole]

/-! ## The ends of the range -/

theorem ofInt_natCast (n : Nat) : ofInt n = ofNat n := by
  have sign : decide ((n : Int) < 0) = false := decide_eq_false (by omega)
  simp [ofInt, ofNat, sign]

theorem ofNat_limit : ofNat (2 ^ 63) = .finite false (2 ^ 63 * unitsPerOne) := by
  apply Exact.ofNat_eq
  exact ⟨1, 63, by decide, by decide, by decide⟩

theorem ofInt_minInt64 : ofInt minInt64 = .finite true (2 ^ 63 * unitsPerOne) := by
  have negated : ofInt minInt64 = (ofNat (2 ^ 63)).neg := (ofRatio_neg _ 1).symm
  rw [negated, ofNat_limit]
  rfl

/-- From the limit of the range on, doubles are whole multiples of 2048. -/
theorem IsMagnitude.gap {m : Nat} (h : IsMagnitude m) (far : 2 ^ 63 * unitsPerOne < m) :
    (2 ^ 63 + 2048) * unitsPerOne ≤ m := by
  obtain ⟨u, hu⟩ : ∃ u, u = 1074 := ⟨_, rfl⟩
  obtain ⟨c, k, small, rfl⟩ := h
  rw [unitsPerOne_eq hu] at far ⊢
  have exponent : 11 + u ≤ k := by
    by_contra less
    apply far.not_ge
    calc c * 2 ^ k ≤ 2 ^ 53 * 2 ^ (10 + u) :=
          Nat.mul_le_mul small.le (Nat.pow_le_pow_right two_pos (by omega))
      _ = 2 ^ 63 * 2 ^ u := by rw [← Nat.pow_add, ← Nat.pow_add, ← Nat.add_assoc]
  obtain ⟨j, rfl⟩ := Nat.exists_eq_add_of_le exponent
  have multiple : c * 2 ^ (11 + u + j) = c * 2 ^ j * 2048 * 2 ^ u := by
    rw [Nat.pow_add, Nat.pow_add]
    ring
  rw [multiple] at far ⊢
  have beyond : 2 ^ 63 < c * 2 ^ j * 2048 := Nat.lt_of_mul_lt_mul_right far
  apply Nat.mul_le_mul_right
  omega

theorem IsDouble.isFinite {x : Binary64} (h : x.IsDouble) : x.isFinite = true := by
  cases x with
  | finite => rfl
  | nan | infinite => exact h.elim

theorem IsDouble.gap {x : Binary64} (h : x.IsDouble) (far : 2 ^ 63 < |x.toRat|) :
    2 ^ 63 + 2048 ≤ |x.toRat| := by
  cases x with
  | nan | infinite => exact h.elim
  | finite s m =>
    have unit : (0 : ℚ) < unitsPerOne := by exact_mod_cast unitsPerOne_pos
    have size : |(finite s m).toRat| = m / unitsPerOne := by
      have magnitude : (0 : ℚ) ≤ m / unitsPerOne := div_nonneg m.cast_nonneg unit.le
      cases s
      · exact abs_of_nonneg magnitude
      · exact (abs_neg _).trans (abs_of_nonneg magnitude)
    have magnitude : IsMagnitude m := h
    have gap := magnitude.gap
    rw [size, lt_div_iff₀ unit] at far
    rw [size, le_div_iff₀ unit]
    generalize unitsPerOne = u at far gap ⊢
    exact_mod_cast gap (by exact_mod_cast far)

/-- The quantities that a rounding takes to the limit of the range, from the limit on. -/
def Brims (q : ℚ) : Prop := 2 ^ 63 ≤ q ∧ q ≤ 2 ^ 63 + 1024

instance : DecidablePred Brims := fun _ => inferInstanceAs (Decidable (_ ∧ _))

def capped? (q : ℚ) : Option Int := if Brims q then some maxInt64 else truncated? q

theorem capped?_within {i : Int} (h : minInt64 ≤ i ∧ i ≤ maxInt64) : capped? i = some i := by
  have inside : ¬ Brims i := by
    rintro ⟨low, -⟩
    have low : 2 ^ 63 ≤ i := by exact_mod_cast low
    rw [maxInt64_eq] at h
    omega
  rw [capped?, if_neg inside, truncated?_intCast, if_pos h]

theorem toInt64?_finite {x : Binary64} (h : x.isFinite = true) :
    x.toInt64? =
      if -2 ^ 63 ≤ x.toRat ∧ x.toRat ≤ 2 ^ 63 then
        some (if maxInt64 < towardZero x.toRat then maxInt64 else towardZero x.toRat)
      else none := by
  have low : (ofInt minInt64).le x = true ↔ -2 ^ 63 ≤ x.toRat := by
    rw [ofInt_minInt64, le_iff_toRat rfl h, toRat_whole]
    norm_num [signed]
  have high : x.le (ofInt (1 <<< 63 : Nat)) = true ↔ x.toRat ≤ 2 ^ 63 := by
    have limit : (1 <<< 63 : Nat) = 2 ^ 63 := by decide
    rw [ofInt_natCast, limit, ofNat_limit, le_iff_toRat h rfl, toRat_whole]
    norm_num [signed]
  unfold toInt64?
  rw [truncate_finite h]
  simp only [Bool.and_eq_true, low, high, Option.map_some]

theorem toInt64?_double {x : Binary64} (h : x.IsDouble) : x.toInt64? = capped? x.toRat := by
  have gap := h.gap
  rw [toInt64?_finite h.isFinite, capped?]
  generalize x.toRat = q at gap
  rcases lt_trichotomy q (2 ^ 63) with less | rfl | more
  · rw [if_neg fun brims : Brims q => less.not_ge brims.1]
    by_cases least : -2 ^ 63 ≤ q
    · have fits : ¬ maxInt64 < towardZero q := by
        have := towardZero_lt (i := 2 ^ 63) (by decide) (by exact_mod_cast less)
        rw [maxInt64_eq]
        omega
      rw [if_pos ⟨least, less.le⟩, if_neg fits, truncated?_within least less]
    · -- No double lies so close below the range that it would be cut to its least integer.
      have far := gap (lt_abs.2 (.inr (by linarith)))
      rw [abs_of_neg (by linarith)] at far
      rw [if_neg fun inside => least inside.1, truncated?_below (by linarith)]
  · have exceeds : maxInt64 < towardZero (2 ^ 63) := by
      have := le_towardZero (i := 2 ^ 63) (q := 2 ^ 63) (by norm_num)
      rw [maxInt64_eq]
      omega
    rw [if_pos ⟨by norm_num, le_rfl⟩, if_pos exceeds, if_pos ⟨le_rfl, by norm_num⟩]
  · have far := gap (lt_abs.2 (.inl more))
    rw [abs_of_pos (by linarith)] at far
    have beyond : ¬ Brims q := fun brims => by linarith [brims.2]
    rw [if_neg fun inside => more.not_ge inside.2, if_neg beyond, truncated?_above more.le]

def rational? (x : Binary64) : Option ℚ := if x.isFinite then some x.toRat else none

theorem toInt64?_rounded {x : Binary64} (h : x.IsRounded) :
    x.toInt64? = x.rational?.bind capped? := by
  unfold rational?
  split_ifs with finite
  · exact toInt64?_double (h finite)
  · cases x with
    | finite => exact absurd rfl finite
    | nan | infinite => simp [toInt64?, truncate]

/-! ## Whole numbers beyond the range -/

theorem ofInt_beyond {n : Nat} (low : 2 ^ 63 ≤ n) (high : n < 2 ^ 64) :
    ofInt n = .finite false (roundHalfEven n 2048 * 2048 * unitsPerOne) := by
  obtain ⟨u, hu⟩ : ∃ u, u = 1074 := ⟨_, rfl⟩
  have bits : Nat.log2 (n * 2 ^ u) = 63 + u := by
    have positive : n * 2 ^ u ≠ 0 := (Nat.mul_pos (by omega) (Nat.two_pow_pos u)).ne'
    apply (Nat.log2_eq_iff positive).2
    constructor
    · rw [Nat.pow_add]
      exact Nat.mul_le_mul_right _ low
    · rw [Nat.add_right_comm, Nat.pow_add]
      exact Nat.mul_lt_mul_of_pos_right high (Nat.two_pow_pos u)
  have shift : 63 + u - 52 = 11 + u := by omega
  have rounded : roundUnits (n * unitsPerOne) 1 = roundHalfEven n 2048 * 2048 * unitsPerOne := by
    unfold roundUnits
    dsimp only
    rw [unitsPerOne_eq hu, Nat.div_one, bits, shift, Nat.one_shiftLeft, Nat.shiftLeft_eq, Nat.pow_add,
      roundHalfEven_mul_right _ _ (Nat.two_pow_pos u), ← Nat.mul_assoc]
  have fits := mul_unitsPerOne_le_maxUnits (high.le.trans (by decide : 2 ^ 64 ≤ 2 ^ 200))
  rw [ofInt_natCast]
  unfold ofNat ofRatio
  rw [ofUnits_finite false Nat.one_pos (by rwa [Nat.mul_one]), rounded]

theorem roundHalfEven_limit {n : Nat} (low : 2 ^ 63 ≤ n) :
    2 ^ 52 ≤ roundHalfEven n 2048 ∧ (roundHalfEven n 2048 ≤ 2 ^ 52 ↔ n ≤ 2 ^ 63 + 1024) := by
  unfold roundHalfEven
  split_ifs <;> omega

theorem toInt64?_beyond {n : Nat} (low : 2 ^ 63 ≤ n) (high : n < 2 ^ 64) :
    (ofInt n).toInt64? = capped? n := by
  have double : (ofInt n).IsRounded := ofUnits_rounded _ _ Nat.one_pos
  obtain ⟨least, limit⟩ := roundHalfEven_limit low
  rw [ofInt_beyond low high] at double ⊢
  rw [toInt64?_double (double rfl), toRat_whole]
  show capped? (roundHalfEven n 2048 * 2048 : Nat) = _
  generalize roundHalfEven n 2048 = r at least limit
  have beyond : 2 ^ 63 ≤ r * 2048 := by omega
  have same : r * 2048 ≤ 2 ^ 63 + 1024 ↔ n ≤ 2 ^ 63 + 1024 := by omega
  have brims : Brims (r * 2048 : Nat) ↔ Brims n := by
    apply and_congr
    · exact iff_of_true (by exact_mod_cast beyond) (by exact_mod_cast low)
    · exact_mod_cast same
  unfold capped?
  rw [truncated?_above (by exact_mod_cast beyond), truncated?_above (by exact_mod_cast low),
    if_congr brims rfl rfl]

theorem toInt64?_integer {i : Int} (h : Json.Fits i) (beyond : ¬ (minInt64 ≤ i ∧ i ≤ maxInt64)) :
    (ofInt i).toInt64? = capped? i := by
  obtain ⟨low, high⟩ := h
  have above : maxInt64 < i := not_le.1 fun less => beyond ⟨low, less⟩
  rw [maxInt64_eq] at above
  lift i to Nat using by omega
  have high : i < 2 ^ 64 := Nat.lt_of_le_of_lt high (by decide)
  exact toInt64?_beyond (by omega) high

end Binary64

/-! ## Fields -/

namespace Json

open Binary64

/-- The quantity that a value stands for. A string stands for the integer of 64 bits that it spells,
or else for the double. -/
def quantity? : Json → Option ℚ
  | number (.integer i) => some i
  | number (.real x) => x.rational?
  | string s =>
    let text := trim s.toList
    ((Digits.boundedInt? minInt64 maxInt64 text).map Int.cast).orElse fun _ =>
      (Binary64.ofText? text).bind rational?
  | _ => none

theorem boundedInt?_within {least greatest i : Int} {cs : List Char}
    (h : Digits.boundedInt? least greatest cs = some i) : least ≤ i ∧ i ≤ greatest := by
  unfold Digits.boundedInt? at h
  simpa using (Option.filter_eq_some_iff.1 h).2

theorem int64?_eq {v : Json} (h : v.Holds) : v.int64? = v.quantity?.bind capped? := by
  cases h with
  | null | bool | array | object => rfl
  | @number n held =>
    cases n with
    | real x => exact toInt64?_rounded held
    | integer i =>
      show (if _ then _ else _) = capped? i
      split_ifs with inside
      · exact (capped?_within inside).symm
      · exact toInt64?_integer held inside
  | string s =>
    show (Digits.boundedInt? minInt64 maxInt64 (trim s.toList)).orElse _ = _
    unfold quantity?
    dsimp only
    cases spelled : Digits.boundedInt? minInt64 maxInt64 (trim s.toList) with
    | some i => exact (capped?_within (boundedInt?_within spelled)).symm
    | none =>
      show (ofText? (trim s.toList)).bind toInt64? = ((ofText? (trim s.toList)).bind rational?).bind _
      cases read : ofText? (trim s.toList) with
      | none => rfl
      | some x =>
        rw [Option.bind_some, Option.bind_some]
        exact toInt64?_rounded (rounded_of_ofText? read)

end Json

namespace Field

open Binary64

theorem coerceInt_eq {value : Option Json} (h : ∀ v, value = some v → v.Holds) (default : Int) :
    coerceInt value default = ((value.bind Json.quantity?).bind capped?).getD default := by
  unfold coerceInt
  cases value with
  | none => rfl
  | some v => rw [Option.bind_some, Option.bind_some, Json.int64?_eq (h v rfl)]

/-- An integer field is the quantity of the value cut toward zero, or the default where that is no
integer of 64 bits. A quantity within a rounding of the upper limit is the exception: it gives the
greatest integer, though it is greater than that. -/
theorem coerceInt_truncates_iff {value : Option Json} (h : ∀ v, value = some v → v.Holds)
    (default : Int) :
    (coerceInt value default = ((value.bind Json.quantity?).bind truncated?).getD default ↔
        (∀ q, value.bind Json.quantity? = some q → ¬ Brims q) ∨ default = maxInt64) ∧
      ∀ q, value.bind Json.quantity? = some q → Brims q → coerceInt value default = maxInt64 := by
  rw [coerceInt_eq h]
  cases value.bind Json.quantity? with
  | none => simp
  | some q =>
    by_cases brims : Brims q
    · have capped : capped? q = some maxInt64 := if_pos brims
      have cut : truncated? q = none := truncated?_above brims.1
      simp [capped, cut, brims, eq_comm]
    · have capped : capped? q = truncated? q := if_neg brims
      simp [capped, brims]

/-- Size 9223372036854776833, the first that is rounded to a greater double than the limit. -/
theorem largeSize_defaults :
    Json.parse? "9223372036854776833" = some (.number (.integer 9223372036854776833)) ∧
      coerceInt (some (.number (.integer 9223372036854776833))) 7 = 7 := by
  have read : Json.Literal.read? "9223372036854776833".toList =
      some (⟨false, "9223372036854776833".toList, none, none⟩, []) := by decide
  have parsed := Json.parse?_of_read? read (n := .integer 9223372036854776833) (by decide +kernel)
  refine ⟨parsed, ?_⟩
  have quantity : Json.quantity? (.number (.integer 9223372036854776833)) =
      some ((9223372036854776833 : Int) : ℚ) := rfl
  have held (v : Json) (hv : some (.number (.integer 9223372036854776833)) = some v) : v.Holds := by
    cases hv
    exact Json.holds_of_parse? parsed
  have outside : ¬ Brims ((9223372036854776833 : Int) : ℚ) := by norm_num [Brims]
  have cut : truncated? ((9223372036854776833 : Int) : ℚ) = none := by
    rw [truncated?_intCast]
    decide
  have reading := (coerceInt_truncates_iff held 7).1.2
  rw [Option.bind_some, quantity, Option.bind_some, cut] at reading
  apply reading
  left
  rintro q ⟨⟩
  exact outside

theorem limitSize_capped :
    Json.parse? "9223372036854775808" = some (.number (.integer 9223372036854775808)) ∧
      Json.quantity? (.number (.integer 9223372036854775808)) = some ((2 ^ 63 : Int) : ℚ) ∧
      truncated? ((2 ^ 63 : Int) : ℚ) = none ∧
      coerceInt (some (.number (.integer 9223372036854775808))) 0 = 9223372036854775807 := by
  have read : Json.Literal.read? "9223372036854775808".toList =
      some (⟨false, "9223372036854775808".toList, none, none⟩, []) := by decide
  refine ⟨Json.parse?_of_read? read (by decide +kernel), rfl, ?_, by decide +kernel⟩
  rw [truncated?_intCast]
  decide

end Field

end MarketFeed
