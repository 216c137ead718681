import MarketFeed.Binary64.Numeral
import MarketFeed.Json
import MarketFeed.Text.Blank

/-!
# Permissive fields

A feed sends one and the same field now as a number and now as a string. Each reading below takes
both, and gives its default for a value that is absent or spells nothing of its type.
-/

namespace MarketFeed

def minInt64 : Int := -(1 <<< 63 : Nat)

def maxInt64 : Int := (1 <<< 63 : Nat) - 1

namespace Binary64

/-- A double cut to a whole number, if it lies between `-2 ^ 63` and `2 ^ 63`; `2 ^ 63` itself
gives the greatest 64-bit integer. -/
def toInt64? (x : Binary64) : Option Int :=
  if (ofInt minInt64).le x && x.le (ofInt (1 <<< 63 : Nat)) then
    x.truncate.map fun i => if maxInt64 < i then maxInt64 else i
  else none

end Binary64

namespace Json

def finite? : Json → Option Binary64
  | number n => some n.toBinary64
  | string s => (Binary64.ofText? (trim s.toList)).filter Binary64.isFinite
  | _ => none

/-- A 64-bit integer, from a number or from a string that spells one; what is not whole is cut
toward zero. -/
def int64? : Json → Option Int
  | number (.integer i) =>
    if minInt64 ≤ i ∧ i ≤ maxInt64 then some i else (Binary64.ofInt i).toInt64?
  | number (.real x) => x.toInt64?
  | string s =>
    let text := trim s.toList
    (Digits.boundedInt? minInt64 maxInt64 text).orElse fun _ =>
      (Binary64.ofText? text).bind Binary64.toInt64?
  | _ => none

/-- A truth value, from a boolean, from the words `true`, `1`, `false` and `0` in any case, or
from a number, of which zero alone is false. -/
def bool? : Json → Option Bool
  | bool b => some b
  | string s =>
    let word := asciiLower (trim s.toList)
    if word = "true".toList ∨ word = "1".toList then some true
    else if word = "false".toList ∨ word = "0".toList then some false
    else none
  | number n => some (!n.toBinary64.eq .zero)
  | _ => none

def scalarText? : Json → Option String
  | string s => some s
  | number n => some n.render
  | bool b => some (if b then "true" else "false")
  | _ => none

end Json

namespace Field

def coerceFloat (value : Option Json) (default : Binary64) : Binary64 :=
  (value.bind Json.finite?).getD default

def coerceInt (value : Option Json) (default : Int) : Int :=
  (value.bind Json.int64?).getD default

def coerceBool (value : Option Json) (default : Bool) : Bool :=
  (value.bind Json.bool?).getD default

/-! The fields of a message, by their key. -/

def text (message : Json) (key : String) : String :=
  ((message.get? key).bind Json.scalarText?).getD ""

def float (message : Json) (key : String) : Binary64 :=
  coerceFloat (message.get? key) .zero

def int (message : Json) (key : String) : Int :=
  coerceInt (message.get? key) 0

def bool (message : Json) (key : String) : Bool :=
  coerceBool (message.get? key) false

end Field

end MarketFeed
