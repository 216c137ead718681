/-!
# Binary64 numbers

A finite double is a whole number of units of `2 ^ (-1074)`, the smallest positive double, so
every operation is exact arithmetic on natural numbers followed by one rounding. `roundUnits` is
that rounding: to nearest, ties to even, with 53 significant bits. Two zeros are kept apart by
their sign.
-/

namespace MarketFeed

/-- The whole number nearest to `n / d`; a value half-way between two goes to the even one. -/
def roundHalfEven (n d : Nat) : Nat :=
  if 2 * (n % d) < d then n / d
  else if d < 2 * (n % d) then n / d + 1
  else if n / d % 2 = 0 then n / d else n / d + 1

theorem le_roundHalfEven (n d : Nat) : n / d ≤ roundHalfEven n d := by
  unfold roundHalfEven
  repeat' split
  all_goals omega

theorem roundHalfEven_le (n d : Nat) : roundHalfEven n d ≤ n / d + 1 := by
  unfold roundHalfEven
  repeat' split
  all_goals omega

inductive Binary64 where
  | nan
  | infinite (negative : Bool)
  /-- `± units * 2 ^ (-1074)` -/
  | finite (negative : Bool) (units : Nat)
  deriving DecidableEq, Repr, Inhabited

namespace Binary64

def unitsPerOne : Nat := 1 <<< 1074

/-- The largest finite magnitude, in units. -/
def maxUnits : Nat := ((1 <<< 53) - 1) <<< 2045

/-- Rounds `n / d` units to 53 significant bits. -/
def roundUnits (n d : Nat) : Nat :=
  let shift := Nat.log2 (n / d) - 52
  roundHalfEven n (d <<< shift) <<< shift

/-- The double nearest to `± n / d` units; too large a magnitude becomes infinite. -/
def ofUnits (negative : Bool) (n d : Nat) : Binary64 :=
  let units := roundUnits n d
  if units ≤ maxUnits then .finite negative units else .infinite negative

def ofRatio (negative : Bool) (n d : Nat) : Binary64 :=
  ofUnits negative (n * unitsPerOne) d

def ofNat (n : Nat) : Binary64 := ofRatio false n 1

def ofInt (i : Int) : Binary64 := ofRatio (i < 0) i.natAbs 1

def zero : Binary64 := .finite false 0

def one : Binary64 := .finite false unitsPerOne

def isFinite : Binary64 → Bool
  | .finite .. => true
  | _ => false

def isNan : Binary64 → Bool
  | .nan => true
  | _ => false

def isZero : Binary64 → Bool
  | .finite _ 0 => true
  | _ => false

/-! ## Order

Comparison is that of the numbers: the two zeros are equal, and `nan` compares with nothing. -/

def signedUnits (negative : Bool) (units : Nat) : Int :=
  if negative then -(units : Int) else units

def lt : Binary64 → Binary64 → Bool
  | .nan, _ | _, .nan => false
  | .infinite a, .infinite b => a && !b
  | .infinite a, .finite .. => a
  | .finite .., .infinite b => !b
  | .finite a m, .finite b n => signedUnits a m < signedUnits b n

def eq : Binary64 → Binary64 → Bool
  | .infinite a, .infinite b => a == b
  | .finite a m, .finite b n => signedUnits a m == signedUnits b n
  | _, _ => false

def le (x y : Binary64) : Bool := x.lt y || x.eq y

/-! Equality is symmetric and transitive, but `nan` does not equal itself. -/

theorem eq_symm {x y : Binary64} (h : x.eq y = true) : y.eq x = true := by
  cases x <;> cases y <;> simp_all [eq]

theorem eq_trans {x y z : Binary64} (hxy : x.eq y = true) (hyz : y.eq z = true) :
    x.eq z = true := by
  cases x <;> cases y <;> cases z <;> simp_all [eq]

/-- The smaller of two; a `nan` gives way to the other. -/
def min (x y : Binary64) : Binary64 :=
  if y.lt x || x.isNan then y else x

/-- The larger of two; a `nan` gives way to the other. -/
def max (x y : Binary64) : Binary64 :=
  if x.lt y || x.isNan then y else x

/-! ## Arithmetic -/

def neg : Binary64 → Binary64
  | .nan => .nan
  | .infinite s => .infinite !s
  | .finite s m => .finite (!s) m

/-- Rounds a sum of `i / d` units; an exact zero takes the sign `zeroSign`. -/
def ofSum (zeroSign : Bool) (i : Int) (d : Nat) : Binary64 :=
  if i = 0 then .finite zeroSign 0 else ofUnits (i < 0) i.natAbs d

def add : Binary64 → Binary64 → Binary64
  | .nan, _ | _, .nan => .nan
  | .infinite a, .infinite b => if a = b then .infinite a else .nan
  | .infinite a, .finite .. => .infinite a
  | .finite .., .infinite b => .infinite b
  | .finite a m, .finite b n => ofSum (a && b) (signedUnits a m + signedUnits b n) 1

def sub (x y : Binary64) : Binary64 := x.add y.neg

def mul : Binary64 → Binary64 → Binary64
  | .nan, _ | _, .nan => .nan
  | .infinite a, .infinite b => .infinite (a != b)
  | .infinite a, .finite b n => if n = 0 then .nan else .infinite (a != b)
  | .finite a m, .infinite b => if m = 0 then .nan else .infinite (a != b)
  | .finite a m, .finite b n => ofUnits (a != b) (m * n) unitsPerOne

def div : Binary64 → Binary64 → Binary64
  | .nan, _ | _, .nan => .nan
  | .infinite _, .infinite _ => .nan
  | .infinite a, .finite b _ => .infinite (a != b)
  | .finite a _, .infinite b => .finite (a != b) 0
  | .finite a m, .finite b n =>
    if n = 0 then (if m = 0 then .nan else .infinite (a != b))
    else ofUnits (a != b) (m * unitsPerOne) n

/-- `x * y + z` with a single rounding. -/
def fma : Binary64 → Binary64 → Binary64 → Binary64
  | .finite a m, .finite b n, .finite c k =>
    ofSum ((a != b) && c)
      (signedUnits (a != b) (m * n) + signedUnits c (k * unitsPerOne)) unitsPerOne
  | .finite .., .finite .., z => z
  | x, y, z => (x.mul y).add z

/-- Powers by repeated squaring, from the lowest bit of the exponent; a factor is multiplied in
when its bit is set. -/
def powNat (x : Binary64) (n : Nat) : Binary64 :=
  go (Nat.log2 n + 1) x n one
where
  go : Nat → Binary64 → Nat → Binary64 → Binary64
    | 0, _, _, acc => acc
    | fuel + 1, base, n, acc =>
      if n = 0 then acc
      else
        let acc := if n % 2 = 1 then acc.mul base else acc
        if n / 2 = 0 then acc else go fuel (base.mul base) (n / 2) acc

/-! ## Whole numbers -/

/-- The whole part of a finite double, toward zero. -/
def truncate : Binary64 → Option Int
  | .finite s m => some (if s then -((m / unitsPerOne : Nat) : Int) else (m / unitsPerOne : Nat))
  | _ => none

instance : Add Binary64 := ⟨add⟩
instance : Sub Binary64 := ⟨sub⟩
instance : Mul Binary64 := ⟨mul⟩
instance : Div Binary64 := ⟨div⟩
instance : Neg Binary64 := ⟨neg⟩

end Binary64

end MarketFeed
