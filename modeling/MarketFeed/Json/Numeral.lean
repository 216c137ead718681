import MarketFeed.Json
import MarketFeed.Text.Digits

/-!
# Number literals

A literal without point and power that fits 64 bits is a whole number. Every other literal is a
double: its digits are gathered into a significand of at most 64 bits, which is then scaled by a
power of ten. Gathering and scaling round separately, so the double may differ in its last bits
from the one nearest to the literal.
-/

namespace MarketFeed.Json

def maxSignificand : Nat := (1 <<< 64) - 1

/-- Appends digits to a significand up to the first that would overflow it. Gives the significand
and how many digits went in. -/
def gather (significand : Nat) : List Char → Nat × Nat
  | [] => (significand, 0)
  | c :: cs =>
    let next := 10 * significand + Digits.valueOf c
    if next ≤ maxSignificand then
      let (s, n) := gather next cs
      (s, n + 1)
    else (significand, 0)

/-- Divides by `10 ^ 308` while the power of ten is below `-308`; zero stays zero. -/
def scaleDown : Nat → Binary64 → Int → Binary64
  | 0, x, power => x.div (.ofNat (Nat.pow 10 (-power).toNat))
  | fuel + 1, x, power =>
    if -308 ≤ power then x.div (.ofNat (Nat.pow 10 (-power).toNat))
    else if x.isZero then x
    else scaleDown fuel (x.div (.ofNat (Nat.pow 10 308))) (power + 308)

def scale? (significand : Nat) (power : Int) : Option Binary64 :=
  let x := Binary64.ofNat significand
  if power < 0 then some (scaleDown ((-power).toNat / 308) x power)
  else if 308 < power then (if x.isZero then some x else none)
  else
    let y := x.mul (.ofNat (Nat.pow 10 power.toNat))
    if y.isFinite then some y else none

def withSign (negative : Bool) (x : Binary64) : Binary64 :=
  if negative then x.neg else x

/-- The parts of a literal: its sign, the digits before the point, the digits after it and the
power of ten, which are absent together with the point and the letter. -/
structure Literal where
  negative : Bool
  whole : List Char
  fraction : Option (List Char)
  power : Option (Bool × List Char)
  deriving DecidableEq, Repr

/-- The greatest power of ten that is read as a number; larger ones count as without bound. -/
def maxPower : Nat := (1 <<< 31) - 1

/-- The whole number of a literal that has neither point nor power. Minus zero and numbers that
do not fit 64 bits are doubles. -/
def wholeNumber (negative : Bool) (magnitude : Nat) : Json.Number :=
  if !negative then .integer magnitude
  else if magnitude = 0 || 1 <<< 63 < magnitude then .real (Binary64.ofNat magnitude).neg
  else .integer (-(magnitude : Int))

namespace Literal

def number? (l : Literal) : Option Json.Number :=
  let (significand, taken) := gather 0 l.whole
  let dropped := l.whole.length - taken
  if l.fraction.isNone && l.power.isNone && dropped = 0 then
    some (wholeNumber l.negative significand)
  else
    let (significand, places) := gather significand (l.fraction.getD [])
    let shift : Int := (dropped : Int) - places
    let scaled : Option Binary64 := match l.power with
      | none => scale? significand shift
      | some (negativePower, digits) =>
        let power := Digits.value digits
        if power ≤ maxPower then
          scale? significand (if negativePower then shift - power else shift + power)
        else if significand ≠ 0 && !negativePower then none
        else some .zero
    scaled.map fun x => .real (withSign l.negative x)

def splitSign : List Char → Bool × List Char
  | '-' :: cs => (true, cs)
  | cs => (false, cs)

def fraction? : List Char → Option (Option (List Char) × List Char)
  | '.' :: cs =>
    if (Digits.run cs).isEmpty then none else some (some (Digits.run cs), Digits.rest cs)
  | cs => some (none, cs)

def splitPowerSign : List Char → Bool × List Char
  | '-' :: cs => (true, cs)
  | '+' :: cs => (false, cs)
  | cs => (false, cs)

def power? : List Char → Option (Option (Bool × List Char) × List Char)
  | [] => some (none, [])
  | c :: cs =>
    if c = 'e' ∨ c = 'E' then
      let signed := splitPowerSign cs
      if (Digits.run signed.2).isEmpty then none
      else some (some (signed.1, Digits.run signed.2), Digits.rest signed.2)
    else some (none, c :: cs)

/-- Reads a literal at the front of a text. Its first digit is a zero only if no digit follows. -/
def read? (cs : List Char) : Option (Literal × List Char) := do
  let signed := splitSign cs
  let whole := Digits.run signed.2
  if whole.isEmpty || (whole.head? == some '0' && whole.length ≠ 1) then none
  else
    let (fraction, cs) ← fraction? (Digits.rest signed.2)
    let (power, cs) ← power? cs
    return (⟨signed.1, whole, fraction, power⟩, cs)

theorem length_splitSign_le (cs : List Char) : (splitSign cs).2.length ≤ cs.length := by
  unfold splitSign
  split <;> simp

theorem length_splitPowerSign_le (cs : List Char) : (splitPowerSign cs).2.length ≤ cs.length := by
  unfold splitPowerSign
  split <;> simp

theorem length_fraction?_le {cs r : List Char} {f : Option (List Char)}
    (h : fraction? cs = some (f, r)) : r.length ≤ cs.length := by
  unfold fraction? at h
  split at h
  · split at h
    · simp at h
    · rename_i c _
      simp only [Option.some.injEq, Prod.mk.injEq] at h
      have := Digits.length_rest_le c
      simp only [List.length_cons, ← h.2]
      omega
  · simp_all

theorem length_power?_le {cs r : List Char} {p : Option (Bool × List Char)}
    (h : power? cs = some (p, r)) : r.length ≤ cs.length := by
  unfold power? at h
  split at h
  · simp_all
  · rename_i c cs
    split at h
    · dsimp only at h
      split at h
      · simp at h
      · simp only [Option.some.injEq, Prod.mk.injEq] at h
        have := Digits.length_rest_le (splitPowerSign cs).2
        have := length_splitPowerSign_le cs
        simp only [List.length_cons, ← h.2]
        omega
    · simp_all

theorem length_rest_lt {cs : List Char} (h : (Digits.run cs).isEmpty = false) :
    (Digits.rest cs).length < cs.length := by
  have := congrArg List.length (Digits.run_append_rest cs)
  simp only [List.length_append] at this
  have : (Digits.run cs).length ≠ 0 := by
    intro e
    simp [List.length_eq_zero_iff.1 e] at h
  omega

theorem length_lt_of_read? {cs r : List Char} {l : Literal} (h : read? cs = some (l, r)) :
    r.length < cs.length := by
  unfold read? at h
  simp only [] at h
  split at h
  · simp at h
  · rename_i hw
    cases hf : fraction? (Digits.rest (splitSign cs).2) with
    | none => simp [hf] at h
    | some f =>
      obtain ⟨f, r₁⟩ := f
      cases hp : power? r₁ with
      | none => simp [hf, hp] at h
      | some p =>
        obtain ⟨p, r₂⟩ := p
        simp [hf, hp] at h
        have h₁ := length_fraction?_le hf
        have h₂ := length_power?_le hp
        have h₃ := length_splitSign_le cs
        have h₄ : (Digits.run (splitSign cs).2).isEmpty = false := by
          simp only [Bool.or_eq_true, not_or, Bool.not_eq_true] at hw
          exact hw.1
        have h₅ := length_rest_lt h₄
        rw [← h.2]
        omega

end Literal

end MarketFeed.Json
