/-!
# UTF-8

Bytes and the characters that they encode. Each byte that starts no encoding, and each encoding
that breaks off, is one malformed part; reading goes on with the first byte that does not belong
to it.
-/

namespace MarketFeed.Utf8

/-- What the first byte of an encoding announces. -/
structure Lead where
  following : Nat
  least : Nat
  greatest : Nat
  bits : Nat
  deriving DecidableEq, Repr

/-- Encodings longer than needed, of surrogates and above U+10FFFF are ruled out by the range of
the second byte, where the first byte does not rule them out already. -/
def lead? (b : Nat) : Option Lead :=
  if b < 0x80 then some ⟨0, 0x80, 0xBF, b⟩
  else if b < 0xC2 then none
  else if b < 0xE0 then some ⟨1, 0x80, 0xBF, b - 0xC0⟩
  else if b < 0xF0 then
    some ⟨2, if b = 0xE0 then 0xA0 else 0x80, if b = 0xED then 0x9F else 0xBF, b - 0xE0⟩
  else if b < 0xF5 then
    some ⟨3, if b = 0xF0 then 0x90 else 0x80, if b = 0xF4 then 0x8F else 0xBF, b - 0xF0⟩
  else none

/-- Reads a number of further bytes, of which the first lies in a range. -/
def follow : Nat → Nat → Nat → Nat → List UInt8 → Option Nat × List UInt8
  | 0, _, _, bits, bs => (some bits, bs)
  | _ + 1, _, _, _, [] => (none, [])
  | n + 1, least, greatest, bits, b :: bs =>
    if least ≤ b.toNat ∧ b.toNat ≤ greatest then follow n 0x80 0xBF (64 * bits + b.toNat % 64) bs
    else (none, b :: bs)

def next (b : UInt8) (bs : List UInt8) : Option Nat × List UInt8 :=
  match lead? b.toNat with
  | some l => follow l.following l.least l.greatest l.bits bs
  | none => (none, bs)

theorem length_follow_le (n least greatest bits : Nat) (bs : List UInt8) :
    (follow n least greatest bits bs).2.length ≤ bs.length := by
  fun_induction follow n least greatest bits bs with
  | case1 => exact Nat.le_refl _
  | case2 => exact Nat.le_refl _
  | case3 n least greatest bits b bs _ ih => exact Nat.le_succ_of_le ih
  | case4 => exact Nat.le_refl _

theorem length_next_le (b : UInt8) (bs : List UInt8) : (next b bs).2.length ≤ bs.length := by
  unfold next
  split
  · exact length_follow_le ..
  · exact Nat.le_refl _

/-- The characters that bytes encode; nothing stands for a malformed part. -/
def parts : List UInt8 → List (Option Char)
  | [] => []
  | b :: bs => (next b bs).1.map Char.ofNat :: parts (next b bs).2
termination_by bs => bs.length
decreasing_by exact Nat.lt_succ_of_le (length_next_le b bs)

def decode? (bs : List UInt8) : Option String := ((parts bs).mapM id).map String.ofList

/-- The text that bytes encode, with U+FFFD for each malformed part. -/
def decodeLossy (bs : List UInt8) : String :=
  String.ofList ((parts bs).map fun c => c.getD '\uFFFD')

/-- Reads a document: a byte order mark at its front is no part of its text. -/
def decodeDocument : List UInt8 → String
  | 0xEF :: 0xBB :: 0xBF :: bs => decodeLossy bs
  | bs => decodeLossy bs

def encode (cs : List Char) : List UInt8 := cs.flatMap String.utf8EncodeChar

end MarketFeed.Utf8
