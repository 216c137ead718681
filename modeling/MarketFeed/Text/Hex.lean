/-!
# Hexadecimal digits
-/

namespace MarketFeed.Hex

def digit (n : Nat) : Char :=
  Char.ofNat (if n < 10 then '0'.toNat + n else 'a'.toNat + n - 10)

def capital (n : Nat) : Char :=
  Char.ofNat (if n < 10 then '0'.toNat + n else 'A'.toNat + n - 10)

def value? (c : Char) : Option Nat :=
  if '0' ≤ c ∧ c ≤ '9' then some (c.toNat - '0'.toNat)
  else if 'a' ≤ c ∧ c ≤ 'f' then some (c.toNat - 'a'.toNat + 10)
  else if 'A' ≤ c ∧ c ≤ 'F' then some (c.toNat - 'A'.toNat + 10)
  else none

def byte? (high low : Char) : Option UInt8 :=
  match value? high, value? low with
  | some h, some l => some (UInt8.ofNat (16 * h + l))
  | _, _ => none

/-- The bytes that pairs of digits spell, up to the first pair that spells none. -/
def bytes : List Char → List UInt8
  | h :: l :: rest => match byte? h l with
    | some b => b :: bytes rest
    | none => []
  | _ => []

end MarketFeed.Hex
