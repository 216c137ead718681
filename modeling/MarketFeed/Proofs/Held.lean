import Mathlib
import MarketFeed.Proofs.Contents
import MarketFeed.Proofs.Quoting

/-!
# Numbers that are held

A number of a message is a whole number of 64 bits, with sign or without, or a double. Reading a text
gives no other number, at any depth, and no other double comes out of a numeral in a string.
-/

namespace MarketFeed

namespace Binary64

/-! ## Results of a rounding -/

def IsRounded (x : Binary64) : Prop := x.isFinite = true → x.IsDouble

theorem isRounded_of_not_finite {x : Binary64} (h : x.isFinite = false) : x.IsRounded := by
  intro finite
  cases h.symm.trans finite

theorem ofUnits_rounded (negative : Bool) (n : Nat) {d : Nat} (hd : 0 < d) :
    (ofUnits negative n d).IsRounded := by
  unfold ofUnits
  dsimp only
  split_ifs
  · intro _
    exact roundUnits_isMagnitude n hd
  · exact isRounded_of_not_finite rfl

theorem IsRounded.neg {x : Binary64} (h : x.IsRounded) : x.neg.IsRounded := by
  cases x with
  | finite => exact h
  | nan | infinite => exact isRounded_of_not_finite rfl

theorem mul_rounded (x y : Binary64) : (x.mul y).IsRounded := by
  unfold mul
  split
  all_goals try split_ifs
  all_goals first
    | exact isRounded_of_not_finite rfl
    | exact ofUnits_rounded _ _ unitsPerOne_pos

theorem div_rounded (x y : Binary64) : (x.div y).IsRounded := by
  unfold div
  split
  all_goals try split_ifs with zero
  all_goals first
    | exact isRounded_of_not_finite rfl
    | exact fun _ => isMagnitude_zero
    | exact ofUnits_rounded _ _ (Nat.pos_of_ne_zero zero)

theorem ofDecimal_rounded (negative : Bool) (digits : Nat) (exponent : Int) :
    (ofDecimal negative digits exponent).IsRounded := by
  have zero : (finite negative 0).IsRounded := fun _ => isMagnitude_zero
  unfold ofDecimal
  split_ifs
  · exact zero
  · exact isRounded_of_not_finite rfl
  · exact ofUnits_rounded _ _ Nat.one_pos
  · exact zero
  · exact ofUnits_rounded _ _ (Nat.pow_pos (by omega))

theorem rounded_of_ofUnsigned? {negative : Bool} {cs : List Char} {x : Binary64}
    (h : ofUnsigned? negative cs = some x) : x.IsRounded := by
  unfold ofUnsigned? at h
  cases numeral : ofNumeral? negative cs with
  | some y =>
    rw [numeral] at h
    cases h
    unfold ofNumeral? at numeral
    dsimp only at numeral
    split_ifs at numeral
    obtain ⟨power, -, rfl⟩ := Option.map_eq_some_iff.1 numeral
    exact ofDecimal_rounded _ _ _
  | none =>
    rw [numeral] at h
    change ofName? negative cs = some x at h
    unfold ofName? at h
    dsimp only at h
    split_ifs at h
    all_goals
      cases h
      exact isRounded_of_not_finite rfl

theorem rounded_of_ofText? {cs : List Char} {x : Binary64} (h : ofText? cs = some x) :
    x.IsRounded := by
  unfold ofText? at h
  split at h <;> exact rounded_of_ofUnsigned? h

end Binary64

namespace Json

open Binary64

/-! ## Numbers of a literal -/

def Number.Held : Number → Prop
  | .integer i => Fits i
  | .real x => x.IsRounded

theorem wholeNumber_held (negative : Bool) {magnitude : Nat} (h : magnitude ≤ maxSignificand) :
    (wholeNumber negative magnitude).Held := by
  unfold wholeNumber
  split_ifs with sign large
  · exact ⟨by omega, by simpa using h⟩
  · exact (ofUnits_rounded _ _ Nat.one_pos).neg
  · simp only [Bool.or_eq_true, decide_eq_true_eq, not_or] at large
    exact ⟨by omega, by simpa using h⟩

theorem scaleDown_rounded (fuel : Nat) (x : Binary64) (power : Int) :
    (scaleDown fuel x power).IsRounded := by
  induction fuel generalizing x power with
  | zero => exact div_rounded _ _
  | succ fuel ih =>
    unfold scaleDown
    split_ifs with near zero
    · exact div_rounded _ _
    · unfold isZero at zero
      split at zero
      · exact fun _ => isMagnitude_zero
      · cases zero
    · exact ih _ _

theorem scale?_rounded {significand : Nat} {power : Int} {x : Binary64}
    (h : scale? significand power = some x) : x.IsRounded := by
  unfold scale? at h
  dsimp only at h
  split_ifs at h
  · cases h
    exact scaleDown_rounded _ _ _
  · cases h
    exact ofUnits_rounded _ _ Nat.one_pos
  · cases h
    exact mul_rounded _ _

theorem withSign_rounded (negative : Bool) {x : Binary64} (h : x.IsRounded) :
    (withSign negative x).IsRounded := by
  unfold withSign
  split_ifs
  · exact h.neg
  · exact h

theorem Literal.number?_held {l : Literal} {n : Json.Number} (h : l.number? = some n) : n.Held := by
  unfold number? at h
  dsimp only at h
  split_ifs at h
  · cases h
    exact wholeNumber_held _ (gather_le 0 (by omega) l.whole)
  · obtain ⟨x, scaled, rfl⟩ := Option.map_eq_some_iff.1 h
    apply withSign_rounded
    split at scaled
    · exact scale?_rounded scaled
    · split_ifs at scaled
      · exact scale?_rounded scaled
      · exact scale?_rounded scaled
      · cases scaled
        exact fun _ => isMagnitude_zero

/-! ## Numbers of a text -/

inductive Holds : Json → Prop where
  | null : Holds null
  | bool (b : Bool) : Holds (bool b)
  | number {n : Json.Number} : n.Held → Holds (number n)
  | string (s : String) : Holds (string s)
  | array {items : List Json} : (∀ v ∈ items, Holds v) → Holds (array items)
  | object {members : List (String × Json)} : (∀ m ∈ members, Holds m.2) → Holds (object members)

theorem Number.Spelled.held {n : Number} (h : n.Spelled) : n.Held := by
  obtain ⟨l, number⟩ := h
  exact Literal.number?_held number

theorem Every.holds {v : Json} (h : v.Every Number.Spelled) : v.Holds := by
  induction h with
  | null => exact .null
  | bool b => exact .bool b
  | number spelled => exact .number spelled.held
  | string s => exact .string s
  | array _ ih => exact .array ih
  | object _ ih => exact .object ih

theorem holds_of_parse? {text : String} {v : Json} (h : parse? text = some v) : v.Holds :=
  (spelled_of_parse? h).holds

end Json

end MarketFeed
