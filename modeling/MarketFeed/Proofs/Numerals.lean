import Mathlib
import MarketFeed.Proofs.Nearest
import MarketFeed.Text.Blank

/-!
# Readings of a literal

A literal is read in two ways: as a number, by way of a scaled significand, and as a numeral in a
string, with one rounding. The second gives the nearest double always and the first for plain
literals, but no literal is read as a number that is not finite.
-/

namespace MarketFeed

namespace Json.Literal

open Digits Binary64

/-! ## What a literal says -/

def significand (l : Literal) : Nat := Digits.value (l.whole ++ l.fraction.getD [])

def powerValue (l : Literal) : Int :=
  match l.power with
  | none => 0
  | some (negative, ds) => if negative then -(Digits.value ds : Int) else Digits.value ds

def exponent (l : Literal) : Int := l.powerValue - (l.fraction.getD []).length

def toRat (l : Literal) : ℚ := signed l.negative (l.significand * (10 : ℚ) ^ l.exponent)

def nearest (l : Literal) : Binary64 := .ofDecimal l.negative l.significand l.exponent

@[simp]
theorem significand_whole (negative : Bool) (ds : List Char) :
    significand ⟨negative, ds, none, none⟩ = Digits.value ds := by
  simp [significand]

@[simp]
theorem exponent_whole (negative : Bool) (ds : List Char) :
    exponent ⟨negative, ds, none, none⟩ = 0 := by
  simp [exponent, powerValue]

/-! ## As a number -/

theorem wholeNumber_toBinary64 (negative : Bool) (magnitude : Nat) :
    (wholeNumber negative magnitude).toBinary64 = .ofDecimal negative magnitude 0 := by
  have positive : ofDecimal false magnitude 0 = ofNat magnitude := by
    rw [ofDecimal_eq (by decide), if_pos le_rfl]
    simp [Binary64.ofNat]
  unfold wholeNumber
  cases negative with
  | false =>
    rw [positive]
    have sign : decide ((magnitude : Int) < 0) = false := decide_eq_false (by omega)
    show Binary64.ofInt magnitude = _
    unfold Binary64.ofInt
    rw [sign, Int.natAbs_natCast]
    rfl
  | true =>
    rw [← ofDecimal_neg, positive, if_neg (by decide)]
    split_ifs with real
    · rfl
    · have nonzero : magnitude ≠ 0 := by
        rintro rfl
        exact real (by simp)
      have sign : decide (-(magnitude : Int) < 0) = true := decide_eq_true (by omega)
      show Binary64.ofInt (-magnitude) = _
      unfold Binary64.ofInt
      rw [sign, Int.natAbs_neg, Int.natAbs_natCast, ← ofRatio_neg]
      rfl

theorem withSign_finite (negative : Bool) {x : Binary64} (h : x.isFinite = true) :
    (withSign negative x).isFinite = true := by
  unfold withSign
  split_ifs
  · cases x <;> simp_all [isFinite, Binary64.neg]
  · exact h

theorem wholeNumber_finite (negative : Bool) {magnitude : Nat} (h : magnitude ≤ maxSignificand) :
    (wholeNumber negative magnitude).toBinary64.isFinite = true := by
  have bound : magnitude ≤ 2 ^ 64 := h.trans (by decide)
  unfold wholeNumber
  split_ifs
  · exact (ofInt_small (by simpa using bound)).isFinite
  · exact (ofNat_small bound).neg.isFinite
  · exact (ofInt_small (by simpa using bound)).isFinite

theorem number?_finite {l : Literal} {n : Json.Number} (h : l.number? = some n) :
    n.toBinary64.isFinite = true := by
  have first := gather_le 0 (by omega) l.whole
  have second := gather_le _ first (l.fraction.getD [])
  unfold number? at h
  dsimp only at h
  split_ifs at h with whole
  · cases h
    exact wholeNumber_finite _ first
  · obtain ⟨x, hx, rfl⟩ := Option.map_eq_some_iff.1 h
    apply withSign_finite
    split at hx
    · exact scale?_finite second hx
    · split_ifs at hx
      · exact scale?_finite second hx
      · exact scale?_finite second hx
      · cases hx
        rfl

/-- The digits go into the significand, and digits and power of ten are doubles already. A literal
without point and power needs neither. -/
def Plain (l : Literal) : Prop :=
  l.significand ≤ maxSignificand ∧
    (l.fraction = none ∧ l.power = none ∨
      Exact l.significand ∧ l.exponent.natAbs ≤ 22 ∧ l.powerValue.natAbs ≤ maxPower)

theorem number?_scaled {l : Literal} (h : l.significand ≤ maxSignificand)
    (hp : l.powerValue.natAbs ≤ maxPower) (hl : ¬ (l.fraction = none ∧ l.power = none)) :
    l.number? =
      (scale? l.significand l.exponent).map fun x => .real (withSign l.negative x) := by
  obtain ⟨negative, whole, fraction, power⟩ := l
  have digits : significand ⟨negative, whole, fraction, power⟩ =
      Nat.ofDigitChars 10 (fraction.getD []) (Nat.ofDigitChars 10 whole 0) := by
    unfold significand
    rw [Digits.value_eq, Nat.ofDigitChars_append]
  rw [digits] at h ⊢
  have first : Nat.ofDigitChars 10 whole 0 ≤ maxSignificand := (le_ofDigitChars _ _).trans h
  have parts : ¬ (fraction.isNone && power.isNone &&
      decide (whole.length - whole.length = 0)) = true := by
    simpa using hl
  unfold number?
  dsimp only
  rw [gather_all first]
  dsimp only
  rw [if_neg parts, gather_all h, Nat.sub_self]
  congr 1
  cases power with
  | none => rfl
  | some p =>
    obtain ⟨negativePower, ds⟩ := p
    have fits : Digits.value ds ≤ maxPower := by
      unfold powerValue at hp
      cases negativePower <;> simpa using hp
    show (if Digits.value ds ≤ maxPower then _ else _) = _
    rw [if_pos fits]
    congr 1
    cases negativePower with
    | false =>
      show ((0 : Nat) : Int) - (fraction.getD []).length + Digits.value ds =
        Digits.value ds - (fraction.getD []).length
      omega
    | true =>
      show ((0 : Nat) : Int) - (fraction.getD []).length - Digits.value ds =
        -Digits.value ds - (fraction.getD []).length
      omega

theorem number?_plain {l : Literal} (h : l.Plain) :
    ∃ n, l.number? = some n ∧ n.toBinary64 = l.nearest := by
  obtain ⟨fits, kind⟩ := h
  by_cases parts : l.fraction = none ∧ l.power = none
  · obtain ⟨negative, whole, fraction, power⟩ := l
    obtain ⟨rfl, rfl⟩ : fraction = none ∧ power = none := parts
    rw [significand_whole] at fits
    refine ⟨_, number?_whole negative fits, ?_⟩
    unfold nearest
    rw [wholeNumber_toBinary64, significand_whole, exponent_whole]
  · obtain ⟨exact, short, shortPower⟩ := kind.resolve_left parts
    rw [number?_scaled fits shortPower parts, scale?_eq exact fits short]
    refine ⟨_, rfl, ?_⟩
    show withSign l.negative (ofDecimal false _ _) = _
    unfold withSign nearest
    cases l.negative
    · rw [if_neg (by decide)]
    · rw [if_pos rfl, ofDecimal_neg]

/-! ## As a string -/

theorem toNat?_run {ds : List Char} (h : Run ds) : Digits.toNat? ds = some (Digits.value ds) := by
  have digits : ds.all Char.isDigit = true := List.all_eq_true.2 h.2
  have nonempty : ds.isEmpty = false := by simpa using h.1
  unfold Digits.toNat?
  rw [digits, nonempty]
  rfl

theorem power?_text {power : Option (Bool × List Char)} {text : List Char}
    (h : SpellsPower power text) (l : Literal) (hl : l.power = power) :
    Binary64.power? text = some l.powerValue := by
  unfold powerValue
  rw [hl]
  cases h with
  | none => rfl
  | minus letter digits =>
    show (if _ then _ else _) = _
    rw [if_pos letter]
    simp [toNat?_run digits]
  | plus letter digits =>
    show (if _ then _ else _) = _
    rw [if_pos letter]
    simp [toNat?_run digits]
  | @bare e ds letter digits =>
    obtain ⟨c, hc, digit⟩ := digits.head_digit []
    rw [List.append_nil] at hc
    show (if _ then _ else _) = _
    rw [if_pos letter]
    split
    · cases hc
      cases digit
    · cases hc
      cases digit
    · simp [toNat?_run digits]

theorem ofNumeral?_spelled {l : Literal} {fraction power : List Char} (hw : Run l.whole)
    (hf : SpellsFraction l.fraction fraction) (hp : SpellsPower l.power power) :
    ofNumeral? l.negative (l.whole ++ (fraction ++ power)) = some l.nearest := by
  have ends := hp.stops Ends.nil
  rw [List.append_nil] at ends
  have stops : Stops power := fun c hc => (ends c hc).1
  have text := power?_text hp l rfl
  have nonempty : l.whole.isEmpty = false := by simpa using hw.1
  unfold ofNumeral? nearest significand exponent
  rw [run_append hw.2 (hf.stops stops), rest_append hw.2 (hf.stops stops)]
  generalize l.powerValue = value at text
  generalize l.fraction = f at hf
  cases hf with
  | none =>
    rw [List.nil_append]
    split
    rename_i h
    split at h
    · exact absurd rfl (ends '.' rfl).2
    · cases h
      simp [nonempty, text]
  | @some ds digits =>
    split
    rename_i h
    replace h : (run (ds ++ power), Digits.rest (ds ++ power)) = _ := h
    rw [run_append digits.2 stops, rest_append digits.2 stops] at h
    cases h
    simp [nonempty, text]

theorem ofText?_spelled {l : Literal} {text : List Char} (h : l.Spells text) :
    ofText? text = some l.nearest := by
  obtain ⟨fraction, power, rfl, ⟨whole, -⟩, hf, hp⟩ := h
  have numeral := ofNumeral?_spelled whole hf hp
  obtain ⟨c, hc, digit⟩ := whole.head_digit (fraction ++ power)
  generalize l.whole ++ (fraction ++ power) = body at numeral hc
  have unsigned : ofUnsigned? l.negative body = some l.nearest := by
    unfold ofUnsigned?
    rw [numeral]
    rfl
  generalize l.negative = negative at unsigned
  cases negative with
  | true => exact unsigned
  | false =>
    show ofText? body = _
    unfold ofText?
    split
    · cases hc
      cases digit
    · cases hc
      cases digit
    · exact unsigned

theorem not_blank_of_digit {c : Char} (h : c.isDigit = true) : isBlank c = false := by
  have range := code_range h
  unfold isBlank
  simp
  omega

theorem Run.not_blank {ds : List Char} (h : Run ds) : ∀ c ∈ ds, isBlank c = false :=
  fun c hc => not_blank_of_digit (h.2 c hc)

theorem SpellsFraction.not_blank {fraction : Option (List Char)} {text : List Char}
    (h : SpellsFraction fraction text) : ∀ c ∈ text, isBlank c = false := by
  cases h with
  | none => simp
  | some digits => simpa using ⟨by decide, Run.not_blank digits⟩

theorem SpellsPower.not_blank {power : Option (Bool × List Char)} {text : List Char}
    (h : SpellsPower power text) : ∀ c ∈ text, isBlank c = false := by
  have letter {e : Char} (he : IsPowerLetter e) : isBlank e = false := by
    rcases he with rfl | rfl <;> decide
  cases h with
  | none => simp
  | minus he digits | plus he digits =>
    simpa using ⟨letter he, by decide, Run.not_blank digits⟩
  | bare he digits => simpa using ⟨letter he, Run.not_blank digits⟩

theorem Spells.not_blank {l : Literal} {text : List Char} (h : l.Spells text) :
    text ≠ [] ∧ ∀ c ∈ text, isBlank c = false := by
  obtain ⟨fraction, power, rfl, ⟨whole, -⟩, hf, hp⟩ := h
  have sign : ∀ c ∈ signText l.negative, isBlank c = false := by
    unfold signText
    split_ifs
    · simp
      decide
    · simp
  refine ⟨by simp [whole.1], fun c hc => ?_⟩
  simp only [List.mem_append] at hc
  rcases hc with hc | hc | hc | hc
  · exact sign c hc
  · exact Run.not_blank whole c hc
  · exact hf.not_blank c hc
  · exact hp.not_blank c hc

end Json.Literal

end MarketFeed
