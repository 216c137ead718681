import Mathlib
import MarketFeed.Proofs.Truncation

/-!
# Integer literals

An integer literal is read as a whole number of 64 bits or as a double, by its magnitude and sign,
and the same text in a string as an integer or as the nearest double. The two ways part at the ends of
the 64-bit range, but as integer fields number and string are the same.
-/

namespace MarketFeed

theorem Digits.valueOf_le {c : Char} (h : c.isDigit = true) : valueOf c ≤ 9 := by
  have range := code_range h
  have zero : '0'.toNat = 48 := rfl
  unfold valueOf
  omega

namespace Binary64

/-! ## Doubles beyond the range -/

def Beyond : Binary64 → Prop
  | .finite _ units => 2 ^ 63 * unitsPerOne < units
  | .infinite _ => True
  | .nan => False

theorem Beyond.neg {x : Binary64} (h : x.Beyond) : x.neg.Beyond := by
  cases x with
  | nan => exact h.elim
  | infinite | finite => exact h

theorem Beyond.toInt64? {x : Binary64} (h : x.Beyond) : x.toInt64? = none := by
  cases x with
  | nan => exact h.elim
  | infinite s => simp [Binary64.toInt64?, truncate]
  | finite s m =>
    have unit : (0 : ℚ) < unitsPerOne := by exact_mod_cast unitsPerOne_pos
    have far : (2 ^ 63 : ℚ) < m / unitsPerOne := by
      rw [lt_div_iff₀ unit]
      have units : 2 ^ 63 * unitsPerOne < m := h
      generalize unitsPerOne = u at units ⊢
      exact_mod_cast units
    rw [toInt64?_finite rfl, if_neg]
    rintro ⟨low, high⟩
    cases s
    · exact high.not_gt far
    · change -2 ^ 63 ≤ -((m : ℚ) / unitsPerOne) at low
      linarith

theorem isMagnitude_whole {c : Nat} (small : c < 2 ^ 53) (j : Nat) :
    IsMagnitude (c * 2 ^ j * unitsPerOne) := by
  obtain ⟨k, hk⟩ : ∃ k, k = 1074 := ⟨_, rfl⟩
  refine ⟨c, j + k, small, ?_⟩
  rw [unitsPerOne_eq hk, Nat.mul_assoc, ← Nat.pow_add]

theorem ofUnits_beyond {n d c j : Nat} (negative : Bool) (hd : 0 < d) (small : c < 2 ^ 53)
    (large : 2 ^ 63 < c * 2 ^ j) (h : c * 2 ^ j * unitsPerOne * d ≤ n) :
    (ofUnits negative n d).Beyond := by
  have least := (isMagnitude_whole small j).le_roundUnits hd h
  unfold ofUnits
  dsimp only
  split_ifs
  · exact (Nat.mul_lt_mul_of_pos_right large unitsPerOne_pos).trans_le least
  · trivial

theorem ofNat_least {n c j : Nat} (small : c < 2 ^ 53) (h : c * 2 ^ j ≤ n) :
    (∃ units, c * 2 ^ j * unitsPerOne ≤ units ∧ ofNat n = .finite false units) ∨
      ofNat n = .infinite false := by
  have least : c * 2 ^ j * unitsPerOne ≤ roundUnits (n * unitsPerOne) 1 := by
    apply (isMagnitude_whole small j).le_roundUnits Nat.one_pos
    rw [Nat.mul_one]
    exact Nat.mul_le_mul_right _ h
  unfold ofNat ofRatio ofUnits
  dsimp only
  split_ifs
  · exact .inl ⟨_, least, rfl⟩
  · exact .inr rfl

theorem ofNat_mul_beyond {m n : Nat} (hm : 3 * 2 ^ 59 ≤ m) (hn : 5 * 2 ^ 1 ≤ n) :
    ((ofNat m).mul (ofNat n)).Beyond := by
  have unit := unitsPerOne_pos
  have unbounded {u : Nat} (positive : u ≠ 0) : (if u = 0 then nan else infinite false).Beyond := by
    rw [if_neg positive]
    trivial
  obtain ⟨a, ha, first⟩ | first := ofNat_least (by decide) hm <;>
    obtain ⟨b, hb, second⟩ | second := ofNat_least (by decide) hn <;> rw [first, second]
  · apply ofUnits_beyond (c := 15) (j := 60) _ unitsPerOne_pos (by decide) (by decide)
    calc 15 * 2 ^ 60 * unitsPerOne * unitsPerOne
        = 3 * 2 ^ 59 * unitsPerOne * (5 * 2 ^ 1 * unitsPerOne) := by ring
      _ ≤ a * b := Nat.mul_le_mul ha hb
  · have positive : a ≠ 0 := by omega
    exact unbounded positive
  · have positive : b ≠ 0 := by omega
    exact unbounded positive
  · trivial

end Binary64

namespace Json

open Binary64

/-! ## Digits beyond 64 bits -/

/-- Digits that overflow the significand fill it up to its last digit. -/
theorem gather_stopped {significand : Nat} {cs : List Char} (hd : ∀ c ∈ cs, c.isDigit = true)
    (fits : significand ≤ maxSignificand) (h : maxSignificand < Nat.ofDigitChars 10 cs significand) :
    (gather significand cs).2 < cs.length ∧ maxSignificand < 10 * (gather significand cs).1 + 10 := by
  induction cs generalizing significand with
  | nil => exact absurd h (not_lt.2 fits)
  | cons c cs ih =>
    obtain ⟨digit, digits⟩ := List.forall_mem_cons.1 hd
    rw [Nat.ofDigitChars_cons] at h
    unfold gather
    dsimp only
    split_ifs with next
    · obtain ⟨short, full⟩ := ih digits next h
      exact ⟨Nat.succ_lt_succ short, full⟩
    · have last := Digits.valueOf_le digit
      exact ⟨Nat.succ_pos _, by omega⟩

theorem scale?_beyond {significand power : Nat} (hs : 3 * 2 ^ 59 ≤ significand) (hp : 0 < power)
    {x : Binary64} (h : scale? significand power = some x) : x.Beyond := by
  unfold scale? at h
  dsimp only at h
  rw [if_neg (by omega), Int.toNat_natCast] at h
  split_ifs at h with large zero
  · obtain ⟨units, least, eq⟩ | eq := ofNat_least (by decide) hs
    · rw [eq] at zero
      obtain _ | units := units
      · exact absurd least (by simpa using unitsPerOne_pos.ne')
      · cases zero
    · rw [eq] at zero
      cases zero
  · cases h
    exact ofNat_mul_beyond hs (Nat.le_self_pow hp.ne' 10)

namespace Literal

theorem number?_beyond {negative : Bool} {ds : List Char} (hd : ∀ c ∈ ds, c.isDigit = true)
    (h : maxSignificand < Digits.value ds) {n : Number}
    (hn : number? ⟨negative, ds, none, none⟩ = some n) :
    ∃ x : Binary64, n = .real x ∧ x.Beyond := by
  rw [Digits.value_eq] at h
  obtain ⟨short, full⟩ := gather_stopped hd (Nat.zero_le _) h
  have large : 3 * 2 ^ 59 ≤ (gather 0 ds).1 := by
    have max : maxSignificand = 2 ^ 64 - 1 := by decide
    omega
  have dropped : ds.length - (gather 0 ds).2 ≠ 0 := by omega
  unfold number? at hn
  dsimp only at hn
  rw [if_neg (by simpa using dropped)] at hn
  obtain ⟨x, scaled, rfl⟩ := Option.map_eq_some_iff.1 hn
  have beyond : x.Beyond := by
    apply scale?_beyond large (Nat.pos_of_ne_zero dropped)
    rw [← scaled]
    simp [gather]
  refine ⟨_, rfl, ?_⟩
  unfold withSign
  split_ifs
  · exact beyond.neg
  · exact beyond

theorem nearest_beyond {negative : Bool} {ds : List Char} (h : maxSignificand < Digits.value ds) :
    (nearest ⟨negative, ds, none, none⟩).Beyond := by
  unfold nearest ofDecimal
  rw [significand_whole, exponent_whole, if_neg (Nat.ne_zero_of_lt h), if_neg (by decide), if_pos le_rfl]
  apply ofUnits_beyond (c := 1) (j := 64) _ Nat.one_pos (by decide) (by decide)
  have large : 1 * 2 ^ 64 ≤ Digits.value ds := h
  simpa using Nat.mul_le_mul_right unitsPerOne large

end Literal

/-! ## Integer literals -/

@[ext]
structure IntegerLiteral where
  negative : Bool
  digits : List Char
  whole : Literal.IsWhole digits

namespace IntegerLiteral

variable (t : IntegerLiteral)

def literal : Literal := ⟨t.negative, t.digits, none, none⟩

def text : String := String.ofList (Literal.signText t.negative ++ t.digits)

def magnitude : Nat := Digits.value t.digits

def value : Int := if t.negative then -t.magnitude else t.magnitude

def ofInt (i : Int) : IntegerLiteral := ⟨i < 0, Nat.toDigits 10 i.natAbs, isWhole_toDigits _⟩

theorem spells : t.literal.Spells t.text.toList :=
  ⟨[], [], by simp [text, literal], t.whole, .none, .none⟩

theorem parse?_text : parse? t.text = t.literal.number?.map .number := parse?_literal t.spells

theorem trim_text : trim t.text.toList = t.text.toList :=
  (Tight.of_solid t.spells.not_blank.2).trim_eq

theorem boundedInt?_text (least greatest : Int) :
    Digits.boundedInt? least greatest t.text.toList =
      if least ≤ t.value ∧ t.value ≤ greatest then some t.value else none := by
  have number := Literal.toNat?_run t.whole.1
  obtain ⟨c, first, digit⟩ := t.whole.1.head_digit []
  rw [List.append_nil] at first
  unfold Digits.boundedInt? text value magnitude
  rw [String.toList_ofList]
  cases t.negative with
  | true => simp [Literal.signText, number, Option.filter_some]
  | false =>
    have unsigned : Literal.signText false ++ t.digits = t.digits := rfl
    rw [unsigned]
    dsimp only
    split
    · rename_i minus
      rw [minus] at first
      cases first
      cases digit
    · rename_i plus
      rw [plus] at first
      cases first
      cases digit
    · simp [number, Option.filter_some]

/-- The integer that the literal spells, if it is one of 64 bits, or else the nearest double cut to
such an integer. -/
def int64? : Option Int :=
  if minInt64 ≤ t.value ∧ t.value ≤ maxInt64 then some t.value else t.literal.nearest.toInt64?

theorem int64?_text : (Json.string t.text).int64? = t.int64? := by
  show (Digits.boundedInt? minInt64 maxInt64 (trim t.text.toList)).orElse _ = _
  rw [trim_text, boundedInt?_text, Literal.ofText?_spelled t.spells]
  unfold int64?
  split_ifs
  · rw [Option.orElse_some]
  · rw [Option.orElse_none, Option.bind_some]

theorem wholeNumber_int64? :
    (Json.number (wholeNumber t.negative t.magnitude)).int64? = t.int64? := by
  have double : (wholeNumber t.negative t.magnitude).toBinary64 = t.literal.nearest := by
    rw [Literal.wholeNumber_toBinary64]
    unfold Literal.nearest literal
    rw [Literal.significand_whole, Literal.exponent_whole]
    rfl
  unfold int64? value
  rw [← double]
  unfold wholeNumber
  cases t.negative with
  | false => rfl
  | true =>
    rw [if_neg (by decide), if_pos rfl]
    split_ifs with real within within
    · -- Minus zero is the only double here that is an integer of 64 bits.
      have zero : t.magnitude = 0 := by
        rw [minInt64_eq] at within
        simp only [Bool.or_eq_true, decide_eq_true_eq] at real
        omega
      rw [zero]
      decide +kernel
    · rfl
    · exact if_pos within
    · rw [minInt64_eq, maxInt64_eq] at within
      simp only [Bool.or_eq_true, decide_eq_true_eq] at real
      omega

theorem number_int64? {n : Number} (h : t.literal.number? = some n) :
    (Json.number n).int64? = t.int64? := by
  by_cases fits : t.magnitude ≤ maxSignificand
  · cases (Literal.number?_whole t.negative fits).symm.trans h
    exact t.wholeNumber_int64?
  · have large : maxSignificand < Digits.value t.digits := not_le.1 fits
    obtain ⟨x, rfl, beyond⟩ := Literal.number?_beyond t.whole.1.2 large h
    have outside : ¬ (minInt64 ≤ t.value ∧ t.value ≤ maxInt64) := by
      have size : maxSignificand < t.value.natAbs := by
        unfold value
        split_ifs
        · rwa [Int.natAbs_neg]
        · exact large
      have max : maxSignificand = 2 ^ 64 - 1 := by decide
      rw [minInt64_eq, maxInt64_eq]
      omega
    show x.toInt64? = _
    unfold int64?
    rw [if_neg outside, beyond.toInt64?]
    exact (Literal.nearest_beyond large).toInt64?.symm

end IntegerLiteral

end Json

/-- An integer literal gives the same integer field as a number and in a string, also where it is no
integer of 64 bits. -/
theorem Field.integer_agrees (t : Json.IntegerLiteral) {v : Json} (h : Json.parse? t.text = some v)
    (default : Int) :
    coerceInt (some v) default = coerceInt (some (.string t.text)) default := by
  rw [t.parse?_text] at h
  obtain ⟨n, number, rfl⟩ := Option.map_eq_some_iff.1 h
  unfold coerceInt
  rw [Option.bind_some, Option.bind_some, t.int64?_text, t.number_int64? number]

/-- The integer just below the range, which is read as a double. -/
theorem Field.belowRange_agrees :
    Json.parse? (Json.IntegerLiteral.ofInt (-9223372036854775809)).text =
        some (.number (.real (.finite true (1 <<< 1137)))) ∧
      coerceInt (some (.number (.real (.finite true (1 <<< 1137))))) 7 =
        coerceInt (some (.string (Json.IntegerLiteral.ofInt (-9223372036854775809)).text)) 7 := by
  have number : (Json.IntegerLiteral.ofInt (-9223372036854775809)).literal.number? =
      some (.real (.finite true (1 <<< 1137))) := by decide +kernel
  have parsed : Json.parse? (Json.IntegerLiteral.ofInt (-9223372036854775809)).text =
      some (.number (.real (.finite true (1 <<< 1137)))) := by
    rw [Json.IntegerLiteral.parse?_text, number]
    rfl
  exact ⟨parsed, Field.integer_agrees _ parsed 7⟩

end MarketFeed
