import MarketFeed.Text.Hex
import MarketFeed.Text.Utf8

/-!
# Percent encoding

A byte is written as a percent sign and two hexadecimal digits; a character that has to be encoded
is written byte by byte.
-/

namespace MarketFeed.Percent

def encodeByte (b : UInt8) : List Char :=
  ['%', Hex.capital (b.toNat / 16), Hex.capital (b.toNat % 16)]

def encodeChar (c : Char) : List Char := (String.utf8EncodeChar c).flatMap encodeByte

def encode (keeps : Char → Bool) (cs : List Char) : List Char :=
  cs.flatMap fun c => if keeps c then [c] else encodeChar c

/-- The bytes of a text; a percent sign without two digits stands for itself. -/
def decode : List Char → List UInt8
  | [] => []
  | '%' :: h :: l :: rest =>
    match Hex.byte? h l with
    | some b => b :: decode rest
    | none => 0x25 :: decode (h :: l :: rest)
  | c :: rest => String.utf8EncodeChar c ++ decode rest

end MarketFeed.Percent
