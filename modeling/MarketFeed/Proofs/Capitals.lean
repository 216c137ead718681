import Mathlib
import MarketFeed.Text.Ascii
import MarketFeed.Text.Upper

/-!
# Words in upper case

Which texts have a given word of ASCII capitals as their upper case. A word without `F` and `S` is
spelled by letters of ASCII in either case, and by `ı` for its `I`, but in no other way. These two
capitals are set apart because ligatures of `f` and `s` have them in their upper case.
-/

namespace MarketFeed.Upper

def Plain (n : Nat) : Prop :=
  'A'.toNat ≤ n ∧ n ≤ 'Z'.toNat ∧ n ≠ 'F'.toNat ∧ n ≠ 'S'.toNat
  deriving Decidable

def dotted (c : Char) : Char := if c = 'ı' then 'i' else c

theorem Plain.ascii {n : Nat} (h : Plain n) : n < 128 := Nat.lt_of_le_of_lt h.2.1 (by decide)

theorem plain_of_ofNat {n : Nat} (h : Plain (Char.ofNat n).toNat) : Plain n := by
  rw [Char.toNat_ofNat] at h
  split_ifs at h
  · exact h
  · exact absurd h (by decide)

theorem Row.has_iff {r : Row} {n : Nat} :
    r.has n = true ↔ r.first ≤ n ∧ n ≤ r.last ∧ (n - r.first) % r.step = 0 := by
  unfold Row.has
  simp only [Bool.and_eq_true, decide_eq_true_eq, beq_iff_eq, and_assoc]

theorem isLower_iff (c : Char) : c.isLower = true ↔ 'a'.toNat ≤ c.toNat ∧ c.toNat ≤ 'z'.toNat := by
  simp only [Char.isLower, Bool.and_eq_true, decide_eq_true_eq, UInt32.le_iff_toNat_le]
  exact Iff.rfl

/-! ## Letters of ASCII -/

def latin : Row := ⟨0x61, 0x7A, 1, 0x41⟩

theorem has_latin (c : Char) : latin.has c.toNat = c.isLower := by
  rw [Bool.eq_iff_iff, isLower_iff, Row.has_iff]
  simp [latin, Nat.mod_one]

theorem find?_rows (c : Char) : rows.find? (·.has c.toNat) =
    if c.isLower then some latin else rows.tail.find? (·.has c.toNat) := by
  have split : rows = latin :: rows.tail := rfl
  rw [split, List.find?_cons, has_latin]
  cases c.isLower <;> rfl

theorem expansions_beyond : ∀ e ∈ expansions, 128 ≤ e.1 := by decide +kernel

theorem rows_beyond : ∀ r ∈ rows.tail, 128 ≤ r.first := by decide +kernel

theorem char_ascii {c : Char} (ascii : c.toNat < 128) : char c = [c.toUpper] := by
  have single : expansions.lookup c.toNat = none := by
    rw [List.lookup_eq_none_iff]
    intro e he
    have beyond := expansions_beyond e he
    simp only [bne_iff_ne]
    omega
  have others : rows.tail.find? (·.has c.toNat) = none := by
    rw [List.find?_eq_none]
    intro r hr has
    have beyond := rows_beyond r hr
    have range := Row.has_iff.1 has
    omega
  unfold char
  rw [single, find?_rows, others]
  cases lower : c.isLower with
  | true =>
    have range := (isLower_iff c).1 lower
    have shift : 'A'.toNat + (c.toNat - 'a'.toNat) = c.toNat - 32 := by
      simp only [Char.reduceToNat] at range ⊢
      omega
    rw [Char.toUpper_eq_of_isLower lower, ← shift]
    rfl
  | false =>
    rw [Char.toUpper_eq_of_not_isLower (by simp [lower])]
    rfl

/-! ## Characters beyond ASCII -/

theorem expansions_not_plain : ∀ e ∈ expansions, ∃ n ∈ e.2, ¬ Plain (Char.ofNat n).toNat := by
  decide +kernel

/-- Only rows of a single letter lead into ASCII: that of `ı`, and one to the `S`. -/
theorem rows_not_plain : ∀ r ∈ rows.tail, 128 ≤ r.capital ∨
    r.first = r.last ∧ (r.first = 'ı'.toNat ∨ ¬ Plain r.capital) := by
  decide +kernel

section
variable {c : Char} (beyond : 128 ≤ c.toNat)
include beyond

theorem isLower_of_beyond : c.isLower = false := by
  rw [Bool.eq_false_iff]
  intro lower
  have low : c.toNat ≤ 'z'.toNat := ((isLower_iff c).1 lower).2
  exact absurd (beyond.trans low) (by decide)

theorem char_not_plain (other : c ≠ 'ı') : ∃ d ∈ char c, ¬ Plain d.toNat := by
  unfold char
  split
  · rename_i ns found
    obtain ⟨front, back, split, -⟩ := List.lookup_eq_some_iff.1 found
    obtain ⟨n, hn, no⟩ := expansions_not_plain (c.toNat, ns) (by simp [split])
    exact ⟨_, List.mem_map_of_mem hn, no⟩
  rw [find?_rows, isLower_of_beyond beyond, if_neg Bool.false_ne_true]
  split
  · rename_i r found
    refine ⟨_, List.mem_singleton_self _, fun plain => ?_⟩
    have image := plain_of_ofNat plain
    have has := List.find?_some found
    have range := Row.has_iff.1 has
    obtain high | ⟨single, dotless | no⟩ := rows_not_plain r (List.mem_of_find?_eq_some found)
    · exact absurd image.ascii (by omega)
    · exact other (Char.toNat_inj.1 (by omega))
    · have first : c.toNat - r.first = 0 := by omega
      rw [first] at image
      exact no image
  · exact ⟨c, List.mem_singleton_self c, fun plain => absurd plain.ascii (by omega)⟩

end

theorem char_cases (c : Char) : char c = [(dotted c).toUpper] ∨
    (∃ d ∈ char c, ¬ Plain d.toNat) ∧ ¬ Plain (dotted c).toUpper.toNat := by
  by_cases dotless : c = 'ı'
  · subst dotless
    exact .inl (by decide +kernel)
  rw [dotted, if_neg dotless]
  by_cases ascii : c.toNat < 128
  · exact .inl (char_ascii ascii)
  · have beyond : 128 ≤ c.toNat := by omega
    rw [Char.toUpper_eq_of_not_isLower (by simp [isLower_of_beyond beyond])]
    exact .inr ⟨char_not_plain beyond dotless, fun plain => ascii plain.ascii⟩

/-- A word of plain capitals is the upper case of the texts that spell it in ASCII letters of either
case, with or without a dot on each `i`. -/
theorem text_eq_iff {word cs : List Char} (plain : ∀ d ∈ word, Plain d.toNat) :
    text cs = word ↔ (cs.map dotted).map Char.toUpper = word := by
  have same (h : ∀ c ∈ cs, char c = [(dotted c).toUpper]) :
      text cs = (cs.map dotted).map Char.toUpper := by
    unfold text
    rw [List.map_map, List.map_eq_flatMap]
    exact List.flatMap_congr h
  constructor
  · rintro rfl
    refine (same fun c hc => ?_).symm
    obtain capital | ⟨⟨d, hd, no⟩, -⟩ := char_cases c
    · exact capital
    · exact absurd (plain d (List.mem_flatMap.2 ⟨c, hc, hd⟩)) no
  · rintro rfl
    refine same fun c hc => ?_
    obtain capital | ⟨-, no⟩ := char_cases c
    · exact capital
    · exact absurd (plain _ (List.mem_map_of_mem (List.mem_map_of_mem hc))) no

theorem map_toUpper_eq_iff (cs ds : List Char) :
    cs.map Char.toUpper = ds.map Char.toUpper ↔ asciiLower cs = asciiLower ds := by
  have lower (xs : List Char) : (xs.map Char.toUpper).map Char.toLower = xs.map Char.toLower := by
    rw [List.map_map]
    exact List.map_congr_left fun c _ => c.toLower_toUpper_eq_toLower
  have upper (xs : List Char) : (xs.map Char.toLower).map Char.toUpper = xs.map Char.toUpper := by
    rw [List.map_map]
    exact List.map_congr_left fun c _ => c.toUpper_toLower_eq_toUpper
  unfold asciiLower
  constructor
  · intro same
    rw [← lower cs, same, lower]
  · intro same
    rw [← upper cs, same, upper]

end MarketFeed.Upper
