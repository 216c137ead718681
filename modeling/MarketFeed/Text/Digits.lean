/-!
# Decimal digits

Runs of ASCII digits and the whole numbers they spell.
-/

namespace MarketFeed.Digits

def valueOf (c : Char) : Nat := c.toNat - '0'.toNat

def value (cs : List Char) : Nat :=
  cs.foldl (fun n c => 10 * n + valueOf c) 0

def run (cs : List Char) : List Char := cs.takeWhile Char.isDigit

def rest (cs : List Char) : List Char := cs.dropWhile Char.isDigit

theorem run_append_rest (cs : List Char) : run cs ++ rest cs = cs :=
  List.takeWhile_append_dropWhile

theorem length_rest_le (cs : List Char) : (rest cs).length ≤ cs.length := by
  have := congrArg List.length (run_append_rest cs)
  simp only [List.length_append] at this
  omega

def toNat? (cs : List Char) : Option Nat :=
  if !cs.isEmpty && cs.all Char.isDigit then some (value cs) else none

/-- A whole number at most `greatest`, which may have a plus sign. -/
def boundedNat? (greatest : Nat) (cs : List Char) : Option Nat :=
  let digits := match cs with
    | '+' :: r => r
    | r => r
  (toNat? digits).filter (· ≤ greatest)

/-- A whole number between `least` and `greatest`, which may have a sign. -/
def boundedInt? (least greatest : Int) (cs : List Char) : Option Int :=
  let number : Option Int := match cs with
    | '-' :: r => (toNat? r).map fun n => -(n : Int)
    | '+' :: r => (toNat? r).map Int.ofNat
    | r => (toNat? r).map Int.ofNat
  number.filter fun i => least ≤ i && i ≤ greatest

end MarketFeed.Digits
