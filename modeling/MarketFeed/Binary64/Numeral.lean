import MarketFeed.Binary64
import MarketFeed.Text.Ascii
import MarketFeed.Text.Digits

/-!
# Reading decimal numerals

`Binary64.ofText?` reads a numeral and rounds its value once, to the nearest double. A numeral is
an optional sign followed by `inf`, `infinity` or `nan` in any case, or by digits with an
optional point and an optional power of ten; a digit has to stand on at least one side of the
point.
-/

namespace MarketFeed.Binary64

/-- The double nearest to `± digits * 10 ^ exponent`. Exponents that leave no doubt about the
result are not expanded. -/
def ofDecimal (negative : Bool) (digits : Nat) (exponent : Int) : Binary64 :=
  if digits = 0 then .finite negative 0
  else if 400 < exponent then .infinite negative
  else if 0 ≤ exponent then ofRatio negative (digits * Nat.pow 10 exponent.toNat) 1
  else if exponent + (Nat.repr digits).length < -400 then .finite negative 0
  else ofRatio negative digits (Nat.pow 10 (-exponent).toNat)

/-- A power of ten: the letter, an optional sign and digits, up to the end of the text. No text
at all is the power zero. -/
def power? : List Char → Option Int
  | [] => some 0
  | e :: cs =>
    if e = 'e' ∨ e = 'E' then
      match cs with
      | '-' :: r => (Digits.toNat? r).map fun n => -(n : Int)
      | '+' :: r => (Digits.toNat? r).map Int.ofNat
      | r => (Digits.toNat? r).map Int.ofNat
    else none

def ofNumeral? (negative : Bool) (cs : List Char) : Option Binary64 :=
  let whole := Digits.run cs
  let (fraction, tail) := match Digits.rest cs with
    | '.' :: r => (Digits.run r, Digits.rest r)
    | r => ([], r)
  if whole.isEmpty && fraction.isEmpty then none
  else (power? tail).map fun power =>
    ofDecimal negative (Digits.value (whole ++ fraction)) (power - fraction.length)

def ofName? (negative : Bool) (cs : List Char) : Option Binary64 :=
  let name := asciiLower cs
  if name = "inf".toList ∨ name = "infinity".toList then some (.infinite negative)
  else if name = "nan".toList then some .nan
  else none

def ofUnsigned? (negative : Bool) (cs : List Char) : Option Binary64 :=
  (ofNumeral? negative cs).orElse fun _ => ofName? negative cs

def ofText? : List Char → Option Binary64
  | '-' :: cs => ofUnsigned? true cs
  | '+' :: cs => ofUnsigned? false cs
  | cs => ofUnsigned? false cs

end MarketFeed.Binary64
