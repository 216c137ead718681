import Mathlib
import MarketFeed.Json.Numeral

/-!
# Number literals

How a literal is spelled, and that reading at the front of a text finds a literal exactly where one
is spelled. A whole number that fits 64 bits is read back from its own text.
-/

namespace MarketFeed

/-! ## Runs of digits -/

namespace Digits

def Run (ds : List Char) : Prop := ds ≠ [] ∧ ∀ c ∈ ds, c.isDigit = true

def Stops (rest : List Char) : Prop := ∀ c ∈ rest.head?, c.isDigit = false

section
variable {ds rest : List Char} (hd : ∀ c ∈ ds, c.isDigit = true) (hr : Stops rest)
include hd hr

theorem run_append : run (ds ++ rest) = ds := by
  unfold run
  rw [List.takeWhile_append_of_pos hd]
  obtain _ | ⟨c, rest⟩ := rest
  · simp
  · simp [hr c rfl]

theorem rest_append : Digits.rest (ds ++ rest) = rest := by
  unfold Digits.rest
  rw [List.dropWhile_append_of_pos hd]
  obtain _ | ⟨c, rest⟩ := rest
  · simp
  · simp [hr c rfl]

end

theorem run_digits (cs : List Char) : ∀ c ∈ run cs, c.isDigit = true := by
  intro c hc
  exact List.mem_takeWhile_imp hc

theorem run_of_nonempty {cs : List Char} (h : (run cs).isEmpty = false) : Run (run cs) :=
  ⟨by simpa using h, run_digits cs⟩

theorem Run.head_digit {ds : List Char} (h : Run ds) (rest : List Char) :
    ∃ c, (ds ++ rest).head? = some c ∧ c.isDigit = true := by
  obtain ⟨ne, digits⟩ := h
  obtain _ | ⟨c, ds⟩ := ds
  · exact absurd rfl ne
  · exact ⟨c, rfl, digits c (List.mem_cons_self ..)⟩

theorem value_eq (cs : List Char) : value cs = Nat.ofDigitChars 10 cs 0 := by
  rw [Nat.ofDigitChars_eq_foldl]
  rfl

theorem value_toDigits (n : Nat) : value (Nat.toDigits 10 n) = n := by
  rw [value_eq, Nat.ofDigitChars_ten_toDigits]

theorem code_range {c : Char} (h : c.isDigit = true) : 48 ≤ c.toNat ∧ c.toNat ≤ 57 := by
  simpa [Char.isDigit, UInt32.le_iff_toNat_le] using h

end Digits

namespace Json

namespace Literal

open Digits

/-! ## Spelling -/

def signText (negative : Bool) : List Char := if negative then ['-'] else []

inductive SpellsFraction : Option (List Char) → List Char → Prop where
  | none : SpellsFraction none []
  | some {ds : List Char} : Run ds → SpellsFraction (some ds) ('.' :: ds)

abbrev IsPowerLetter (e : Char) : Prop := e = 'e' ∨ e = 'E'

inductive SpellsPower : Option (Bool × List Char) → List Char → Prop where
  | none : SpellsPower none []
  | minus {e : Char} {ds : List Char} :
    IsPowerLetter e → Run ds → SpellsPower (some (true, ds)) (e :: '-' :: ds)
  | plus {e : Char} {ds : List Char} :
    IsPowerLetter e → Run ds → SpellsPower (some (false, ds)) (e :: '+' :: ds)
  | bare {e : Char} {ds : List Char} :
    IsPowerLetter e → Run ds → SpellsPower (some (false, ds)) (e :: ds)

def IsWhole (ds : List Char) : Prop := Run ds ∧ (ds.head? = some '0' → ds.length = 1)

def Spells (l : Literal) (text : List Char) : Prop :=
  ∃ fraction power, text = signText l.negative ++ (l.whole ++ (fraction ++ power)) ∧
    IsWhole l.whole ∧ SpellsFraction l.fraction fraction ∧ SpellsPower l.power power

/-- A text does not go on with anything that could belong to a literal before it. -/
def Ends (rest : List Char) : Prop :=
  Stops rest ∧ ∀ c ∈ rest.head?, c ≠ '.' ∧ ¬ IsPowerLetter c

theorem Ends.nil : Ends [] := by
  constructor <;> rintro c ⟨⟩

/-! ## Reading what is spelled -/

theorem splitSign_spelled {negative : Bool} {cs : List Char} (h : ∀ c ∈ cs.head?, c ≠ '-') :
    splitSign (signText negative ++ cs) = (negative, cs) := by
  cases negative with
  | true => rfl
  | false =>
    show splitSign cs = _
    unfold splitSign
    split
    · exact absurd rfl (h _ rfl)
    · rfl

theorem fraction?_spelled {fraction : Option (List Char)} {text rest : List Char}
    (h : SpellsFraction fraction text) (hs : Stops rest) (hp : ∀ c ∈ rest.head?, c ≠ '.') :
    fraction? (text ++ rest) = some (fraction, rest) := by
  cases h with
  | none =>
    show fraction? rest = _
    unfold fraction?
    split
    · exact absurd rfl (hp _ rfl)
    · rfl
  | @some ds digits =>
    show (if (run (ds ++ rest)).isEmpty then none
      else some (some (run (ds ++ rest)), Digits.rest (ds ++ rest))) = _
    rw [run_append digits.2 hs, rest_append digits.2 hs, if_neg (by simpa using digits.1)]

theorem splitPowerSign_bare {cs : List Char} (h : ∃ c, cs.head? = some c ∧ c.isDigit = true) :
    splitPowerSign cs = (false, cs) := by
  obtain ⟨c, hc, digit⟩ := h
  unfold splitPowerSign
  split
  · cases hc
    cases digit
  · cases hc
    cases digit
  · rfl

theorem power?_spelled {power : Option (Bool × List Char)} {text rest : List Char}
    (h : SpellsPower power text) (hr : Ends rest) : power? (text ++ rest) = some (power, rest) := by
  have signed (e : Char) (cs : List Char) (negative : Bool) (ds : List Char) (he : IsPowerLetter e)
      (hd : Run ds) (hs : splitPowerSign cs = (negative, ds ++ rest)) :
      power? (e :: cs) = some (some (negative, ds), rest) := by
    unfold power?
    dsimp only
    rw [if_pos he, hs, run_append hd.2 hr.1, rest_append hd.2 hr.1,
      if_neg (by simpa using hd.1)]
  cases h with
  | none =>
    obtain _ | ⟨c, rest⟩ := rest
    · rfl
    · exact if_neg (hr.2 c rfl).2
  | minus he hd => exact signed _ _ true _ he hd rfl
  | plus he hd => exact signed _ _ false _ he hd rfl
  | bare he hd => exact signed _ _ false _ he hd (splitPowerSign_bare (hd.head_digit rest))

theorem SpellsPower.stops {power : Option (Bool × List Char)} {text rest : List Char}
    (h : SpellsPower power text) (hr : Ends rest) :
    ∀ c ∈ (text ++ rest).head?, c.isDigit = false ∧ c ≠ '.' := by
  have letter {e : Char} (he : IsPowerLetter e) : e.isDigit = false ∧ e ≠ '.' := by
    rcases he with rfl | rfl <;> decide
  cases h with
  | none => exact fun c hc => ⟨hr.1 c hc, (hr.2 c hc).1⟩
  | minus he _ | plus he _ | bare he _ => rintro c ⟨⟩; exact letter he

theorem SpellsFraction.stops {fraction : Option (List Char)} {text rest : List Char}
    (h : SpellsFraction fraction text) (hr : Stops rest) : Stops (text ++ rest) := by
  cases h with
  | none => exact hr
  | some => rintro c ⟨⟩; rfl

theorem read?_spelled {l : Literal} {text rest : List Char} (h : l.Spells text) (hr : Ends rest) :
    read? (text ++ rest) = some (l, rest) := by
  obtain ⟨fraction, power, rfl, ⟨whole, zero⟩, hf, hp⟩ := h
  have ends := hp.stops hr
  have stops : Stops (fraction ++ (power ++ rest)) := hf.stops fun c hc => (ends c hc).1
  have sign : splitSign (signText l.negative ++ (l.whole ++ (fraction ++ (power ++ rest)))) =
      (l.negative, l.whole ++ (fraction ++ (power ++ rest))) := by
    apply splitSign_spelled
    obtain ⟨c, hc, digit⟩ := whole.head_digit (fraction ++ (power ++ rest))
    rintro c' hc' rfl
    cases hc.symm.trans hc'
    cases digit
  have first : (l.whole.isEmpty || (l.whole.head? == some '0' && l.whole.length ≠ 1)) = false := by
    simpa [whole.1] using zero
  simp only [List.append_assoc]
  unfold read?
  simp only [sign, run_append whole.2 stops, rest_append whole.2 stops, first,
    fraction?_spelled hf (fun c hc => (ends c hc).1) fun c hc => (ends c hc).2]
  show (power? (power ++ rest)).bind _ = _
  rw [power?_spelled hp hr]
  rfl

/-! ## Spelling what is read -/

theorem splitSign_eq (cs : List Char) : cs = signText (splitSign cs).1 ++ (splitSign cs).2 := by
  unfold splitSign
  split <;> rfl

theorem spellsFraction_of_fraction? {fraction : Option (List Char)} {cs rest : List Char}
    (h : fraction? cs = some (fraction, rest)) :
    ∃ text, cs = text ++ rest ∧ SpellsFraction fraction text := by
  unfold fraction? at h
  split at h
  · rename_i cs
    split_ifs at h with empty
    cases h
    refine ⟨'.' :: run cs, ?_, .some (run_of_nonempty (by simpa using empty))⟩
    rw [List.cons_append, run_append_rest]
  · cases h
    exact ⟨[], rfl, .none⟩

theorem splitPowerSign_cases (cs : List Char) :
    (∃ ds, cs = '-' :: ds ∧ splitPowerSign cs = (true, ds)) ∨
      (∃ ds, cs = '+' :: ds ∧ splitPowerSign cs = (false, ds)) ∨ splitPowerSign cs = (false, cs) := by
  unfold splitPowerSign
  split
  · exact .inl ⟨_, rfl, rfl⟩
  · exact .inr (.inl ⟨_, rfl, rfl⟩)
  · exact .inr (.inr rfl)

theorem spellsPower_of_power? {power : Option (Bool × List Char)} {cs rest : List Char}
    (h : power? cs = some (power, rest)) : ∃ text, cs = text ++ rest ∧ SpellsPower power text := by
  unfold power? at h
  split at h
  · cases h
    exact ⟨[], rfl, .none⟩
  · rename_i e cs
    dsimp only at h
    split_ifs at h with letter empty
    · cases h
      have digits := run_of_nonempty (Bool.eq_false_iff.2 empty)
      have split := run_append_rest (splitPowerSign cs).2
      obtain ⟨ds, rfl, signed⟩ | ⟨ds, rfl, signed⟩ | signed := splitPowerSign_cases cs <;>
        rw [signed] at digits split ⊢
      · exact ⟨e :: '-' :: run ds, by simp only [List.cons_append, split], .minus letter digits⟩
      · exact ⟨e :: '+' :: run ds, by simp only [List.cons_append, split], .plus letter digits⟩
      · exact ⟨e :: run cs, by simp only [List.cons_append, split], .bare letter digits⟩
    · cases h
      exact ⟨[], rfl, .none⟩

theorem spells_of_read? {l : Literal} {cs rest : List Char} (h : read? cs = some (l, rest)) :
    ∃ text, cs = text ++ rest ∧ l.Spells text := by
  unfold read? at h
  dsimp only at h
  split_ifs at h with bad
  obtain ⟨⟨fraction, cs₁⟩, hf, h⟩ := Option.bind_eq_some_iff.1 h
  obtain ⟨⟨power, cs₂⟩, hp, h⟩ := Option.bind_eq_some_iff.1 h
  cases h
  obtain ⟨fractionText, split, fractionSpelled⟩ := spellsFraction_of_fraction? hf
  obtain ⟨powerText, split', powerSpelled⟩ := spellsPower_of_power? hp
  simp only [Bool.or_eq_true, not_or, Bool.not_eq_true, Bool.and_eq_false_iff] at bad
  refine ⟨_, ?_, fractionText, powerText, rfl, ⟨run_of_nonempty bad.1, ?_⟩, fractionSpelled,
    powerSpelled⟩
  · have whole := run_append_rest (splitSign cs).2
    rw [split, show cs₁ = powerText ++ cs₂ from split'] at whole
    conv_lhs => rw [splitSign_eq cs, ← whole]
    simp only [List.append_assoc]
  · intro zero
    simpa [zero] using bad.2

/-! ## Whole numbers -/

end Literal

theorem le_ofDigitChars (cs : List Char) (n : Nat) : n ≤ Nat.ofDigitChars 10 cs n := by
  induction cs generalizing n with
  | nil => simp
  | cons c cs ih =>
    rw [Nat.ofDigitChars_cons]
    exact le_trans (by omega) (ih _)

theorem gather_all {significand : Nat} {cs : List Char}
    (h : Nat.ofDigitChars 10 cs significand ≤ maxSignificand) :
    gather significand cs = (Nat.ofDigitChars 10 cs significand, cs.length) := by
  induction cs generalizing significand with
  | nil => simp [gather]
  | cons c cs ih =>
    rw [Nat.ofDigitChars_cons] at h ⊢
    have next : 10 * significand + Digits.valueOf c ≤ maxSignificand := (le_ofDigitChars cs _).trans h
    have rest : gather (10 * significand + Digits.valueOf c) cs =
        (Nat.ofDigitChars 10 cs (10 * significand + Digits.valueOf c), cs.length) := ih h
    unfold gather
    dsimp only
    rw [if_pos next, rest]
    rfl

namespace Literal

theorem number?_whole (negative : Bool) {ds : List Char} (h : Digits.value ds ≤ maxSignificand) :
    number? ⟨negative, ds, none, none⟩ = some (wholeNumber negative (Digits.value ds)) := by
  rw [Digits.value_eq] at h ⊢
  unfold number?
  simp [gather_all h]

end Literal

theorem digits_zero {n : Nat} (h : (Nat.toDigits 10 n).head? = some '0') : n = 0 := by
  -- A longer numeral begins with the digits of its tenth.
  induction n using Nat.strong_induction_on with
  | _ n ih =>
    by_cases hn : n < 10
    · rw [Nat.toDigits_of_lt_base hn] at h
      simpa using h
    · have tenth : (Nat.toDigits 10 (n / 10)).head? = some '0' := by
        rw [Nat.toDigits_of_base_le (by omega) (by omega), List.head?_append] at h
        obtain ⟨c, cs, hc⟩ := List.exists_cons_of_ne_nil (Nat.toDigits_ne_nil (n := n / 10) (b := 10))
        simpa [hc] using h
      have := ih (n / 10) (by omega) tenth
      omega

theorem isWhole_toDigits (n : Nat) : Literal.IsWhole (Nat.toDigits 10 n) := by
  refine ⟨⟨Nat.toDigits_ne_nil, fun c hc => Nat.isDigit_of_mem_toDigits (by omega) le_rfl hc⟩, ?_⟩
  intro h
  rw [digits_zero h]
  rfl

def Literal.ofInt (i : Int) : Literal := ⟨i < 0, Nat.toDigits 10 i.natAbs, none, none⟩

theorem spells_integerText (i : Int) : (Literal.ofInt i).Spells (integerText i).toList := by
  refine ⟨[], [], ?_, isWhole_toDigits _, .none, .none⟩
  unfold integerText Literal.ofInt
  split <;> simp_all [Literal.signText, Nat.repr_eq_ofList_toDigits]

def Fits (i : Int) : Prop := -(1 <<< 63 : Nat) ≤ i ∧ i.natAbs ≤ maxSignificand

theorem number?_ofInt {i : Int} (h : Fits i) : (Literal.ofInt i).number? = some (.integer i) := by
  have digits := Digits.value_toDigits i.natAbs
  unfold Literal.ofInt
  rw [Literal.number?_whole _ (digits.trans_le h.2), digits]
  obtain ⟨least, -⟩ := h
  unfold wholeNumber
  by_cases negative : i < 0
  · have small : ¬ (i.natAbs = 0 ∨ 1 <<< 63 < i.natAbs) := by omega
    have value : -(i.natAbs : Int) = i := by omega
    rw [decide_eq_true negative, if_neg (by simp), if_neg (by simpa using small), value]
  · have value : (i.natAbs : Int) = i := by omega
    rw [decide_eq_false negative, Bool.not_false, if_pos rfl, value]

end Json

end MarketFeed
