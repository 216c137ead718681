import Mathlib
import MarketFeed.Proofs.Held

/-!
# Texts of numbers

The text of a double spells a decimal that is rounded to that double, in each of the forms that a
layout has. The text of a whole number spells that number and has neither point nor power. Texts of
different numbers are therefore different.
-/

namespace MarketFeed

theorem toList_pushn (s : String) (c : Char) (n : Nat) :
    (s.pushn c n).toList = s.toList ++ List.replicate n c := by
  induction n with
  | zero => simp [String.pushn_eq_repeat_push, Nat.repeat]
  | succ n ih =>
    rw [String.pushn_eq_repeat_push] at ih ⊢
    rw [Nat.repeat, String.toList_push, ih, List.append_assoc, List.replicate_succ']

/-! ## Zeros around digits -/

namespace Digits

theorem value_zeros_append (k : Nat) (ds : List Char) :
    value (List.replicate k '0' ++ ds) = value ds := by
  rw [value_eq, value_eq, Nat.ofDigitChars_append, Nat.ofDigitChars_replicate_zero, Nat.mul_zero]

theorem value_append_zeros (ds : List Char) (k : Nat) :
    value (ds ++ List.replicate k '0') = value ds * 10 ^ k := by
  rw [value_eq, value_eq, Nat.ofDigitChars_append, Nat.ofDigitChars_replicate_zero, Nat.mul_comm]

theorem zeros_digits (k : Nat) : ∀ c ∈ List.replicate k '0', c.isDigit = true := by
  intro c hc
  rw [List.eq_of_mem_replicate hc]
  rfl

end Digits

namespace Binary64

/-! ## Decimals that read back -/

def Decimal.toRat (d : Decimal) : ℚ := d.digits * (10 : ℚ) ^ d.exponent

/-- A decimal is a whole number of steps of `10 ^ (-1074)`, which are rounded to so many units. -/
def Decimal.ReadsBack (d : Decimal) (units : Nat) : Prop :=
  ∃ places : Nat, d.exponent = places - 1074 ∧ readsBack units (d.digits * 10 ^ places) = true

theorem Decimal.ReadsBack.unique {d d' : Decimal} {m m' : Nat} (h : d.ReadsBack m)
    (h' : d'.ReadsBack m') (same : d.toRat = d'.toRat) : m = m' := by
  obtain ⟨places, exponent, reads⟩ := h
  obtain ⟨places', exponent', reads'⟩ := h'
  obtain ⟨k, hk⟩ : ∃ k : Nat, k = 1074 := ⟨_, rfl⟩
  have scaled {e : Decimal} {p : Nat} (he : e.exponent = p - 1074) :
      e.toRat * 10 ^ k = (e.digits * 10 ^ p : Nat) := by
    have split : e.exponent + k = p := by omega
    unfold toRat
    rw [mul_assoc, ← zpow_natCast, ← zpow_add₀ (by norm_num), split, zpow_natCast]
    push_cast
    rfl
  have steps : d.digits * 10 ^ places = d'.digits * 10 ^ places' := by
    have := (scaled exponent).symm.trans ((congrArg (· * 10 ^ k) same).trans (scaled exponent'))
    exact_mod_cast this
  unfold readsBack at reads reads'
  rw [steps] at reads
  exact (beq_iff_eq.1 reads).symm.trans (beq_iff_eq.1 reads')

theorem Decimal.ReadsBack.digits_ne_zero {d : Decimal} {m : Nat} (h : d.ReadsBack m) (hm : m ≠ 0) :
    d.digits ≠ 0 := by
  intro zero
  obtain ⟨places, -, reads⟩ := h
  rw [zero, Nat.zero_mul] at reads
  unfold readsBack at reads
  apply hm
  rw [← beq_iff_eq.1 reads]
  unfold roundUnits
  simp [roundHalfEven]

theorem Decimal.ReadsBack.strip {d : Decimal} {m : Nat} (h : d.ReadsBack m) (fuel : Nat) :
    (Decimal.strip fuel d).ReadsBack m := by
  induction fuel generalizing d with
  | zero => exact h
  | succ fuel ih =>
    unfold Decimal.strip
    split_ifs with zeros
    · apply ih
      obtain ⟨places, exponent, reads⟩ := h
      refine ⟨places + 1, ?_, ?_⟩
      · show d.exponent + 1 = _
        omega
      · have tenth : d.digits / 10 * 10 = d.digits := by omega
        show readsBack m (d.digits / 10 * 10 ^ (places + 1)) = true
        rwa [Nat.pow_succ', ← Nat.mul_assoc, tenth]
    · exact h

theorem stepsPerUnit_pos : 0 < stepsPerUnit := by
  obtain ⟨k, hk⟩ : ∃ k, k = 1074 := ⟨_, rfl⟩
  unfold stepsPerUnit
  rw [← hk]
  exact Nat.pow_pos (by decide)

theorem readsBack_exact {m : Nat} (h : IsMagnitude m) :
    Decimal.ReadsBack ⟨m * stepsPerUnit, -1074⟩ m := by
  refine ⟨0, rfl, ?_⟩
  show (roundUnits (m * stepsPerUnit * 10 ^ 0) stepsPerUnit == m) = true
  rw [Nat.pow_zero, Nat.mul_one, h.roundUnits_eq stepsPerUnit_pos, beq_self_eq_true]

theorem readsBack_of_nearest {units places : Nat} {d : Decimal}
    (h : nearestReadingBack units places = some d) : d.ReadsBack units := by
  refine ⟨places, ?_⟩
  -- Opened as a constant and without its own constants, or checking the branches computes them.
  generalize opened : nearestReadingBack = nearest at h
  delta nearestReadingBack at opened
  generalize readsBack = reads, stepsPerUnit = unit at opened ⊢
  subst opened
  beta_reduce at h
  extract_lets exact step below atPlace at h
  rw [← Nat.pow_eq]
  change d.exponent = _ ∧ reads units (d.digits * step) = true
  have near : roundHalfEven exact step = below ∨ roundHalfEven exact step = below + 1 := by
    have least : below ≤ roundHalfEven exact step := le_roundHalfEven exact step
    have greatest : roundHalfEven exact step ≤ below + 1 := roundHalfEven_le exact step
    omega
  split at h
  · rename_i low high
    cases h
    refine ⟨rfl, ?_⟩
    show reads units (roundHalfEven exact step * step) = true
    obtain rounded | rounded := near
    · rwa [rounded]
    · rwa [rounded]
  · rename_i low _
    cases h
    exact ⟨rfl, low⟩
  · rename_i _ high
    cases h
    exact ⟨rfl, high⟩
  · cases h

theorem shortest_readsBack {m : Nat} (h : IsMagnitude m) : (shortest m).ReadsBack m := by
  unfold shortest
  dsimp only
  apply Decimal.ReadsBack.strip
  cases found : (List.range 17).findSome? fun n => nearestReadingBack m
      ((Nat.repr (m * stepsPerUnit)).length - (n + 1)) with
  | none => exact readsBack_exact h
  | some d =>
    obtain ⟨n, -, nearest⟩ := List.exists_of_findSome?_eq_some found
    exact readsBack_of_nearest nearest

theorem shortest_eq {units places : Nat} {d : Decimal} (least : 10 ^ places ≤ units * stepsPerUnit)
    (greatest : units * stepsPerUnit < 10 ^ (places + 1))
    (found : (List.range 17).findSome? (fun n => nearestReadingBack units (places - n)) = some d) :
    shortest units = Decimal.strip (places + 1) d := by
  have length : (Nat.repr (units * stepsPerUnit)).length = places + 1 := by
    have short := (Nat.length_repr_le_iff places.succ_pos).2 greatest
    obtain rfl | positive := Nat.eq_zero_or_pos places
    · have := Nat.length_repr_pos (n := units * stepsPerUnit)
      omega
    · have long := mt (Nat.length_repr_le_iff positive).1 least.not_gt
      omega
  have places_eq (n : Nat) : places + 1 - (n + 1) = places - n := by omega
  unfold shortest
  dsimp only
  simp only [length, places_eq]
  rw [found, Option.getD_some]

end Binary64

/-! ## Forms of a layout -/

namespace Json.Literal

open Binary64 Digits

theorem Spells.unique {l l' : Literal} {text : List Char} (h : l.Spells text) (h' : l'.Spells text) :
    l = l' := by
  have first := read?_spelled h Ends.nil
  rw [read?_spelled h' Ends.nil] at first
  cases first
  rfl

def Writes (negative : Bool) (q : ℚ) (text : List Char) : Prop :=
  ∃ l : Literal, l.Spells (signText negative ++ text) ∧ l.negative = negative ∧
    l.toRat = signed negative q ∧ ¬ (l.fraction = none ∧ l.power = none)

theorem writes_point (negative : Bool) {whole fraction : List Char} {q : ℚ} (hw : IsWhole whole)
    (hf : Run fraction)
    (hq : (Digits.value (whole ++ fraction) : ℚ) * (10 : ℚ) ^ (-fraction.length : Int) = q) :
    Writes negative q (whole ++ '.' :: fraction) := by
  refine ⟨⟨negative, whole, some fraction, none⟩, ⟨_, _, ?_, hw, .some hf, .none⟩, rfl, ?_, by simp⟩
  · rw [List.append_nil]
  · rw [← hq]
    simp [toRat, significand, exponent, powerValue]

theorem spellsPower_toDigits (power : Int) :
    SpellsPower (some (decide (power < 0), Nat.toDigits 10 power.natAbs))
      ('e' :: (if power < 0 then '-' else '+') :: Nat.toDigits 10 power.natAbs) := by
  have digits := (isWhole_toDigits power.natAbs).1
  split_ifs with sign
  · rw [decide_eq_true sign]
    exact .minus (.inl rfl) digits
  · rw [decide_eq_false sign]
    exact .plus (.inl rfl) digits

theorem powerValue_toDigits (negative : Bool) (whole : List Char) (fraction : Option (List Char))
    (power : Int) :
    powerValue ⟨negative, whole, fraction, some (decide (power < 0), Nat.toDigits 10 power.natAbs)⟩ =
      power := by
  simp only [powerValue, value_toDigits, decide_eq_true_eq]
  split_ifs <;> omega

theorem writes_power (negative : Bool) {whole fraction : List Char} (power : Int) {q : ℚ}
    (hw : IsWhole whole) (hf : ∀ c ∈ fraction, c.isDigit = true)
    (hq : (Digits.value (whole ++ fraction) : ℚ) * (10 : ℚ) ^ (power - fraction.length) = q) :
    Writes negative q (whole ++ ((if fraction.isEmpty then [] else '.' :: fraction) ++
      'e' :: (if power < 0 then '-' else '+') :: Nat.toDigits 10 power.natAbs)) := by
  obtain ⟨part, spelled, digits⟩ : ∃ part,
      SpellsFraction part (if fraction.isEmpty then [] else '.' :: fraction) ∧
        part.getD [] = fraction := by
    split_ifs with empty
    · exact ⟨none, .none, by simpa using empty.symm⟩
    · exact ⟨some fraction, .some ⟨by simpa using empty, hf⟩, rfl⟩
  refine ⟨⟨negative, whole, part, _⟩, ⟨_, _, rfl, hw, spelled, spellsPower_toDigits power⟩, rfl, ?_,
    by simp⟩
  unfold toRat exponent significand
  rw [powerValue_toDigits, digits, hq]

section
variable (negative : Bool) {ds : List Char} (run : Run ds) (head : ds.head? ≠ some '0')
include run

include head in
theorem isWhole_take {k : Nat} (hk : 0 < k) : IsWhole (ds.take k) := by
  refine ⟨⟨by simp [run.1, hk.ne'], fun c hc => run.2 c (List.mem_of_mem_take hc)⟩, ?_⟩
  rw [List.head?_take, if_neg hk.ne']
  exact fun zero => absurd zero head

include head in
theorem writes_whole (k : Nat) :
    Writes negative (Digits.value ds * (10 : ℚ) ^ (k : Int))
      (ds ++ List.replicate k '0' ++ '.' :: ['0']) := by
  apply writes_point negative ⟨⟨by simp [run.1], ?_⟩, ?_⟩ ⟨by simp, by simp⟩
  · have zeros : ds ++ List.replicate k '0' ++ ['0'] = ds ++ List.replicate (k + 1) '0' := by
      rw [List.replicate_succ', List.append_assoc]
    rw [zeros, value_append_zeros, Nat.cast_mul, mul_assoc]
    congr 1
    push_cast
    rw [← zpow_natCast, ← zpow_add₀ (by norm_num)]
    simp
  · intro c hc
    rcases List.mem_append.1 hc with digit | zero
    · exact run.2 c digit
    · exact zeros_digits k c zero
  · rw [List.head?_append_of_ne_nil _ run.1]
    exact fun zero => absurd zero head

include head in
theorem writes_split {k : Nat} (hk : 0 < k) (short : k < ds.length) :
    Writes negative (Digits.value ds * (10 : ℚ) ^ ((k : Int) - ds.length))
      (ds.take k ++ '.' :: ds.drop k) := by
  apply writes_point negative (isWhole_take run head hk) ⟨by simpa using short, ?_⟩
  · rw [List.take_append_drop, List.length_drop]
    congr 2
    omega
  · exact fun c hc => run.2 c (List.mem_of_mem_drop hc)

theorem writes_below (k : Nat) :
    Writes negative (Digits.value ds * (10 : ℚ) ^ (-(k + ds.length) : Int))
      (['0'] ++ '.' :: (List.replicate k '0' ++ ds)) := by
  apply writes_point negative ⟨⟨by simp, by simp⟩, by simp⟩ ⟨by simp [run.1], ?_⟩
  · have zeros : ['0'] ++ (List.replicate k '0' ++ ds) = List.replicate (k + 1) '0' ++ ds := by
      rw [List.replicate_succ]
      rfl
    rw [zeros, value_zeros_append, List.length_append, List.length_replicate, Nat.cast_add]
  · intro c hc
    rcases List.mem_append.1 hc with zero | digit
    · exact zeros_digits k c zero
    · exact run.2 c digit

end

theorem render_writes (negative : Bool) {d : Decimal} (h : d.digits ≠ 0) :
    Writes negative d.toRat (jsonLayout.render d).toList := by
  obtain ⟨ds, hds⟩ : ∃ ds, ds = Nat.toDigits 10 d.digits := ⟨_, rfl⟩
  have digits : Nat.repr d.digits = String.ofList ds := by rw [hds, Nat.repr_eq_ofList_toDigits]
  have value : Digits.value ds = d.digits := by rw [hds, value_toDigits]
  have run : Run ds := hds ▸ (isWhole_toDigits d.digits).1
  have head : ds.head? ≠ some '0' := hds ▸ fun zero => h (digits_zero zero)
  have nonempty : 0 < ds.length := List.length_pos_of_ne_nil run.1
  obtain ⟨p, hp⟩ : ∃ p, p = d.exponent + ds.length - 1 := ⟨_, rfl⟩
  unfold Layout.render Decimal.toRat
  dsimp only
  rw [digits, String.length_ofList, ← value, ← hp, String.toList_ofList]
  by_cases positional : jsonLayout.leastPower ≤ p ∧ p ≤ jsonLayout.greatestPower
  · rw [if_pos positional]
    split_ifs with whole point
    · obtain ⟨k, hk⟩ := Int.eq_ofNat_of_zero_le whole
      convert writes_whole negative run head k using 1
      · rw [hk]
      · simp [toList_pushn, jsonLayout, hk]
    · obtain ⟨k, hk⟩ := Int.eq_ofNat_of_zero_le point
      have taken : (p + 1).toNat = k + 1 := by omega
      convert writes_split negative run head (k := k + 1) (by omega) (by omega) using 1
      · congr 2
        push_cast
        omega
      · simp [taken]
    · obtain ⟨k, hk⟩ : ∃ k, k = (-p - 1).toNat := ⟨_, rfl⟩
      convert writes_below negative run k using 1
      · congr 2
        omega
      · simp [toList_pushn, hk]
  · rw [if_neg positional]
    have rest : ∀ c ∈ ds.drop 1, c.isDigit = true := fun c hc => run.2 c (List.mem_of_mem_drop hc)
    convert writes_power negative p (isWhole_take run head Nat.one_pos) rest ?_ using 1
    · split_ifs <;> simp [Nat.repr_eq_ofList_toDigits, jsonLayout]
    · rw [List.take_append_drop, List.length_drop]
      congr 2
      omega

end Json.Literal

/-! ## Texts of different numbers -/

namespace Binary64

open Json.Literal

theorem IsDouble.render?_eq {x : Binary64} (h : x.IsDouble) :
    x.render? = some (Json.Number.real x).render := by
  cases x with
  | finite => rfl
  | nan | infinite => exact h.elim

theorem render?_writes (negative : Bool) {units : Nat} (h : IsMagnitude units) :
    ∃ (text : String) (digits : List Char) (d : Decimal),
      (finite negative units).render? = some text ∧ text.toList = signText negative ++ digits ∧
        Writes negative d.toRat digits ∧ d.ReadsBack units := by
  have sign (digits : String) :
      (if negative then "-" ++ digits else digits).toList = signText negative ++ digits.toList := by
    unfold signText
    split_ifs <;> simp
  by_cases zero : units = 0
  · subst zero
    refine ⟨_, _, ⟨0 * stepsPerUnit, -1074⟩, rfl, sign _, ?_, readsBack_exact h⟩
    have whole : IsWhole ['0'] := ⟨⟨by simp, by simp⟩, by simp⟩
    convert writes_point negative whole whole.1 rfl using 1
    · simp [Decimal.toRat, Digits.value, Digits.valueOf]
    · rfl
  · have reads := shortest_readsBack h
    refine ⟨_, _, shortest units, rfl, sign _, ?_, reads⟩
    rw [if_neg zero]
    exact render_writes negative (reads.digits_ne_zero zero)

theorem signed_inj {negative : Bool} {q r : ℚ} : signed negative q = signed negative r ↔ q = r := by
  cases negative
  · exact Iff.rfl
  · exact neg_inj

theorem render?_inj {x y : Binary64} (hx : x.IsDouble) (hy : y.IsDouble) (h : x.render? = y.render?) :
    x = y := by
  cases x with
  | nan | infinite => exact hx.elim
  | finite s m =>
    cases y with
    | nan | infinite => exact hy.elim
    | finite s' m' =>
      obtain ⟨text, digits, d, first, split, ⟨l, spells, rfl, value, -⟩, reads⟩ := render?_writes s hx
      obtain ⟨text', digits', d', second, split', ⟨l', spells', rfl, value', -⟩, reads'⟩ :=
        render?_writes s' hy
      rw [first, second] at h
      cases h
      rw [← split] at spells
      rw [← split'] at spells'
      cases spells.unique spells'
      rw [reads.unique reads' (signed_inj.1 (value.symm.trans value'))]

end Binary64

namespace Json

theorem Literal.ofInt_inj {i j : Int} (h : Literal.ofInt i = Literal.ofInt j) : i = j := by
  obtain ⟨sign, digits, -⟩ := Literal.mk.inj h
  have size := congrArg Digits.value digits
  rw [Digits.value_toDigits, Digits.value_toDigits] at size
  have signs : i < 0 ↔ j < 0 := decide_eq_decide.1 sign
  omega

theorem integerText_inj {i j : Int} (h : integerText i = integerText j) : i = j := by
  have first := spells_integerText i
  rw [h] at first
  exact Literal.ofInt_inj (first.unique (spells_integerText j))

namespace Number

open Binary64 Literal

theorem Spelled.isDouble {x : Binary64} (h : (real x).Spelled) : x.IsDouble := by
  have held : x.IsRounded := h.held
  obtain ⟨l, number⟩ := h
  exact held (number?_finite number)

theorem render_spells {n : Number} (h : n.Spelled) :
    ∃ l : Literal, l.Spells n.render.toList ∧
      ((l.fraction = none ∧ l.power = none) ↔ ∃ i, n = integer i) := by
  cases n with
  | integer i => exact ⟨Literal.ofInt i, spells_integerText i, fun _ => ⟨i, rfl⟩, fun _ => ⟨rfl, rfl⟩⟩
  | real x =>
    have double := h.isDouble
    cases x with
    | nan | infinite => exact double.elim
    | finite s m =>
      obtain ⟨text, digits, d, rendered, split, ⟨l, spells, -, -, marked⟩, -⟩ := render?_writes s double
      cases rendered.symm.trans double.render?_eq
      rw [← split] at spells
      exact ⟨l, spells, fun plain => absurd plain marked, fun ⟨_, whole⟩ => nomatch whole⟩

theorem render_inj {m n : Number} (hm : m.Spelled) (hn : n.Spelled) (h : m.render = n.render) :
    m = n := by
  obtain ⟨l, spells, plain⟩ := render_spells hm
  obtain ⟨l', spells', plain'⟩ := render_spells hn
  rw [h] at spells
  cases spells.unique spells'
  have alike := plain.symm.trans plain'
  cases m with
  | integer i =>
    obtain ⟨j, rfl⟩ := alike.1 ⟨i, rfl⟩
    rw [integerText_inj h]
  | real x =>
    cases n with
    | integer j => exact nomatch alike.2 ⟨j, rfl⟩
    | real y =>
      have first := hm.isDouble.render?_eq
      rw [h, ← hn.isDouble.render?_eq] at first
      rw [render?_inj hm.isDouble hn.isDouble first]

end Number

end Json

end MarketFeed
