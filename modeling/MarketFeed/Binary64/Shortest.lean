import MarketFeed.Binary64

/-!
# Shortest decimal text of a double

A finite double has an exact decimal expansion of at most 1074 places. Cutting it after `n`
significant digits gives the two `n`-digit decimals around the value; the shortest text takes the
least `n` at which one of them reads back as the double, and of two that do the nearer one.
-/

namespace MarketFeed.Binary64

/-- A positive decimal number `digits * 10 ^ exponent`. -/
structure Decimal where
  digits : Nat
  exponent : Int
  deriving DecidableEq, Repr

/-- A double of `m` units is `m * 5 ^ 1074` in steps of `10 ^ (-1074)`. -/
def stepsPerUnit : Nat := Nat.pow 5 1074

def readsBack (units steps : Nat) : Bool :=
  roundUnits steps stepsPerUnit == units

/-- Drops the zeros at the end of a decimal's digits; `fuel` bounds how many. -/
def Decimal.strip : Nat → Decimal → Decimal
  | 0, d => d
  | fuel + 1, d =>
    if d.digits ≠ 0 ∧ d.digits % 10 = 0 then
      Decimal.strip fuel ⟨d.digits / 10, d.exponent + 1⟩
    else d

/-- The decimal with the step `10 ^ places` that reads back as `units` and is nearest to it, if
any does; a tie goes to even digits. -/
def nearestReadingBack (units places : Nat) : Option Decimal :=
  let exact := units * stepsPerUnit
  let step := Nat.pow 10 places
  let below := exact / step
  let atPlace (digits : Nat) : Decimal := ⟨digits, (places : Int) - 1074⟩
  match readsBack units (below * step), readsBack units ((below + 1) * step) with
  | true, true => some (atPlace (roundHalfEven exact step))
  | true, false => some (atPlace below)
  | false, true => some (atPlace (below + 1))
  | false, false => none

def shortest (units : Nat) : Decimal :=
  let length := (Nat.repr (units * stepsPerUnit)).length
  let exact : Decimal := ⟨units * stepsPerUnit, -1074⟩
  let found := (List.range 17).findSome? fun n => nearestReadingBack units (length - (n + 1))
  Decimal.strip length (found.getD exact)

/-! ## Layout -/

structure Layout where
  /-- The powers of ten of the first digit that are written positionally. -/
  leastPower : Int
  greatestPower : Int
  /-- Written after a whole number in positional form. -/
  wholeSuffix : String
  /-- Written before a power of ten that is not negative. -/
  plusSign : String

def Layout.render (layout : Layout) (d : Decimal) : String :=
  let digits := Nat.repr d.digits
  let power : Int := d.exponent + digits.length - 1
  if layout.leastPower ≤ power ∧ power ≤ layout.greatestPower then
    if 0 ≤ d.exponent then
      digits ++ "".pushn '0' d.exponent.toNat ++ layout.wholeSuffix
    else if 0 ≤ power then
      let whole := (power + 1).toNat
      String.ofList (digits.toList.take whole) ++ "." ++ String.ofList (digits.toList.drop whole)
    else
      "0." ++ "".pushn '0' (-power - 1).toNat ++ digits
  else
    let first := String.ofList (digits.toList.take 1)
    let others := digits.toList.drop 1
    let fraction := if others.isEmpty then "" else "." ++ String.ofList others
    let sign := if power < 0 then "-" else layout.plusSign
    first ++ fraction ++ "e" ++ sign ++ Nat.repr power.natAbs

/-- Numbers from `1e-5` up to below `1e16` are positional and keep one place after the point;
others carry a signed power of ten. -/
def jsonLayout : Layout := ⟨-5, 15, ".0", "+"⟩

/-- The text of a finite double; `none` for the others, which have no number text. -/
def render? : Binary64 → Option String
  | .finite s m =>
    let magnitude := if m = 0 then "0.0" else jsonLayout.render (shortest m)
    some (if s then "-" ++ magnitude else magnitude)
  | _ => none

end MarketFeed.Binary64
