import Mathlib
import MarketFeed.Proofs.Integers
import MarketFeed.Proofs.Rendering

/-!
# Identifiers that are sent as numbers

A text field that holds a number has the text of that number. An integer literal comes back unchanged
exactly where it fits 64 bits. The others become doubles, and those that become the same one can no
longer be told apart.
-/

namespace MarketFeed

namespace Digits

/-! ## Numerals -/

theorem digitChar_valueOf {c : Char} (h : c.isDigit = true) : Nat.digitChar (valueOf c) = c := by
  have range := code_range h
  have zero : '0'.toNat = 48 := rfl
  apply Char.toNat_inj.1
  unfold valueOf
  rw [Nat.toNat_digitChar_of_lt_ten (by omega)]
  omega

theorem isWhole_init {ds : List Char} {c : Char} (h : Json.Literal.IsWhole (ds ++ [c])) (ne : ds ≠ []) :
    Json.Literal.IsWhole ds ∧ ds.head? ≠ some '0' := by
  obtain ⟨⟨-, digits⟩, single⟩ := h
  have head : ds.head? ≠ some '0' := by
    intro zero
    have one := single (by rw [List.head?_append_of_ne_nil _ ne, zero])
    rw [List.length_append, List.length_singleton] at one
    exact ne (List.length_eq_zero_iff.1 (by omega))
  exact ⟨⟨⟨ne, fun c hc => digits c (List.mem_append_left _ hc)⟩, fun zero => absurd zero head⟩, head⟩

theorem toDigits_value {ds : List Char} (h : Json.Literal.IsWhole ds) :
    Nat.toDigits 10 (value ds) = ds := by
  induction ds using List.reverseRecOn with
  | nil => exact absurd rfl h.1.1
  | append_singleton ds c ih =>
    have digit : c.isDigit = true := h.1.2 c (by simp)
    have last := digitChar_valueOf digit
    have small := valueOf_le digit
    have shifted : value (ds ++ [c]) = 10 * value ds + valueOf c := by simp [value]
    rw [shifted]
    by_cases first : ds = []
    · subst first
      rw [Nat.toDigits_of_lt_base (by simpa [value] using Nat.lt_succ_of_le small)]
      simp [value, last]
    · obtain ⟨whole, head⟩ := isWhole_init h first
      have rest := ih whole
      have positive : value ds ≠ 0 := by
        intro zero
        rw [zero] at rest
        exact head (rest ▸ rfl)
      rw [Nat.toDigits_of_base_le (by omega) (by omega), Nat.mul_add_div (by omega),
        Nat.div_eq_of_lt (by omega), Nat.add_zero, rest, Nat.mul_add_mod, Nat.mod_eq_of_lt (by omega),
        last]

end Digits

namespace Json

theorem Literal.Spells.text_eq {negative : Bool} {ds text : List Char}
    (h : Spells ⟨negative, ds, none, none⟩ text) : text = signText negative ++ ds := by
  obtain ⟨fraction, power, rfl, -, absent, absent'⟩ := h
  cases absent
  cases absent'
  simp

namespace IntegerLiteral

variable (t : IntegerLiteral)

/-! ## Integer literals and their numbers -/

theorem text_ofInt (i : Int) : (ofInt i).text = integerText i := by
  rw [← String.toList_inj, (spells_integerText i).text_eq]
  exact String.toList_ofList

theorem eq_ofInt (h : t.negative = true → t.magnitude ≠ 0) : t = ofInt t.value := by
  have parts : decide (t.value < 0) = t.negative ∧ t.value.natAbs = t.magnitude := by
    unfold value
    cases sign : t.negative with
    | false => simp
    | true =>
      have positive := h sign
      simp
      omega
  apply IntegerLiteral.ext
  · exact parts.1.symm
  · show t.digits = Nat.toDigits 10 t.value.natAbs
    rw [parts.2]
    exact (Digits.toDigits_value t.whole).symm

/-- Of all integer literals only minus zero is not the one of its value. -/
theorem eq_ofInt_of_text (h : t.text ≠ "-0") : t = ofInt t.value := by
  apply t.eq_ofInt
  intro sign zero
  have digits : t.digits = ['0'] := by
    rw [← Digits.toDigits_value t.whole]
    exact congrArg (Nat.toDigits 10) zero
  apply h
  unfold text
  rw [sign, digits]
  rfl

theorem eq_ofInt_of_number? {i : Int} (h : t.literal.number? = some (.integer i)) : t = ofInt i := by
  by_cases fits : t.magnitude ≤ maxSignificand
  · have number := Option.some.inj ((Literal.number?_whole t.negative fits).symm.trans h)
    have whole : t.value = i ∧ (t.negative = true → t.magnitude ≠ 0) := by
      change wholeNumber t.negative t.magnitude = _ at number
      unfold wholeNumber at number
      unfold value
      cases sign : t.negative <;> rw [sign] at number
      · exact ⟨Number.integer.inj number, nofun⟩
      · rw [if_neg (by decide)] at number
        split_ifs at number with small
        exact ⟨Number.integer.inj number, fun _ zero => small (by simp [zero])⟩
    rw [← whole.1]
    exact t.eq_ofInt whole.2
  · obtain ⟨x, real, -⟩ := Literal.number?_beyond t.whole.1.2 (not_le.1 fits) h
    cases real

theorem value_ofInt (i : Int) : (ofInt i).value = i := by
  have size : (ofInt i).magnitude = i.natAbs := Digits.value_toDigits _
  unfold value
  rw [size]
  show (if decide (i < 0) = true then _ else _) = i
  simp only [decide_eq_true_eq]
  split_ifs <;> omega

theorem number?_of_fits (ht : t.text ≠ "-0") (fits : Fits t.value) :
    t.literal.number? = some (.integer t.value) := by
  have own : t.literal = Literal.ofInt t.value := congrArg literal (t.eq_ofInt_of_text ht)
  rw [own]
  exact number?_ofInt fits

theorem render_eq_iff (ht : t.text ≠ "-0") {n : Number} (h : t.literal.number? = some n) :
    n.render = t.text ↔ Fits t.value := by
  constructor
  · intro same
    obtain ⟨l, spells, plain⟩ := Number.render_spells ⟨_, h⟩
    rw [same] at spells
    cases spells.unique t.spells
    -- The text has neither point nor power of ten, so the number is no double.
    obtain ⟨i, rfl⟩ := plain.1 ⟨rfl, rfl⟩
    have held : Fits i := Literal.number?_held h
    rw [t.eq_ofInt_of_number? h, value_ofInt]
    exact held
  · intro fits
    cases h.symm.trans (t.number?_of_fits ht fits)
    show integerText t.value = t.text
    rw [← text_ofInt, ← t.eq_ofInt_of_text ht]

end IntegerLiteral

end Json

open Json

namespace Field

theorem text_number {message : Json} {key : String} {n : Json.Number}
    (h : message.get? key = some (.number n)) : text message key = n.render := by
  unfold text
  rw [h]
  rfl

/-- An integer literal that is sent as a number comes back as it was exactly if it fits 64 bits. Two of
them give the same text exactly if they are read as the same number, which none that fits shares. -/
theorem identifier_kept_iff {t : IntegerLiteral} (ht : t.text ≠ "-0") {v : Json}
    (parsed : parse? t.text = some v) :
    (∀ message key, message.get? key = some v → (text message key = t.text ↔ Fits t.value)) ∧
      ∀ (t' : IntegerLiteral) (v' : Json), parse? t'.text = some v' →
        (∀ message key message' key', message.get? key = some v → message'.get? key' = some v' →
          (text message key = text message' key' ↔ v = v')) ∧
        (Fits t.value → v = v' → t = t') := by
  rw [t.parse?_text] at parsed
  obtain ⟨n, number, rfl⟩ := Option.map_eq_some_iff.1 parsed
  refine ⟨fun message key sent => ?_, fun t' v' parsed' => ?_⟩
  · rw [text_number sent]
    exact t.render_eq_iff ht number
  · rw [t'.parse?_text] at parsed'
    obtain ⟨n', number', rfl⟩ := Option.map_eq_some_iff.1 parsed'
    refine ⟨fun message key message' key' sent sent' => ?_, fun fits same => ?_⟩
    · rw [text_number sent, text_number sent']
      constructor
      · intro alike
        rw [Number.render_inj ⟨_, number⟩ ⟨_, number'⟩ alike]
      · intro same
        cases same
        rfl
    · cases same
      cases number.symm.trans (t.number?_of_fits ht fits)
      rw [t.eq_ofInt_of_number? number, t'.eq_ofInt_of_number? number']

theorem greatestIdentifier_kept :
    parse? "18446744073709551615" = some (.number (.integer 18446744073709551615)) ∧
      text (.object [("id", .number (.integer 18446744073709551615))]) "id" =
        "18446744073709551615" := by
  have spelled : (IntegerLiteral.ofInt 18446744073709551615).text = "18446744073709551615" := by
    decide +kernel
  have number : (IntegerLiteral.ofInt 18446744073709551615).literal.number? =
      some (.integer 18446744073709551615) := by decide +kernel
  have parsed : parse? "18446744073709551615" = some (.number (.integer 18446744073709551615)) := by
    rw [← spelled, IntegerLiteral.parse?_text, number]
    rfl
  have kept := Field.identifier_kept_iff (t := .ofInt 18446744073709551615) (by rw [spelled]; decide)
    (spelled ▸ parsed)
  refine ⟨parsed, ?_⟩
  rw [← spelled]
  refine (kept.1 _ _ rfl).2 ?_
  rw [IntegerLiteral.value_ofInt]
  exact ⟨by decide, by decide⟩

/-- The next two are read as one double, whose text is that of neither. -/
theorem largeIdentifiers_collide :
    parse? "18446744073709551616" = some (.number (.real (.finite false (1 <<< 1138)))) ∧
      parse? "18446744073709551617" = some (.number (.real (.finite false (1 <<< 1138)))) ∧
      text (.object [("id", .number (.real (.finite false (1 <<< 1138))))]) "id" =
        "1.8446744073709552e+19" := by
  have read {i : Int} {spelled : String} {n : Json.Number} (same : integerText i = spelled)
      (number : (Literal.ofInt i).number? = some n) : parse? spelled = some (.number n) := by
    rw [← same, parse?_literal (spells_integerText i), number]
    rfl
  have rendered {m : Nat} (positive : m ≠ 0) : (Json.Number.real (.finite false m)).render =
      Binary64.jsonLayout.render (Binary64.shortest m) := by
    show (if m = 0 then "0.0" else _) = _
    rw [if_neg positive]
  have shortest : Binary64.shortest (1 <<< 1138) = ⟨18446744073709552, 3⟩ := by
    rw [@Binary64.shortest_eq _ 1093 ⟨18446744073709552, 3⟩]
    all_goals decide +kernel
  refine ⟨read (i := 18446744073709551616) (by decide +kernel) (by decide +kernel),
    read (i := 18446744073709551617) (by decide +kernel) (by decide +kernel), ?_⟩
  rw [text_number rfl, rendered (by decide +kernel), shortest]
  decide +kernel

end Field

end MarketFeed
