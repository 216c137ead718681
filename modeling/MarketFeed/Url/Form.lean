import MarketFeed.Text.Percent
import MarketFeed.Text.Pieces

/-!
# Forms

Pairs of a name and a value as `application/x-www-form-urlencoded` text, which is also the form of
a query.
-/

namespace MarketFeed.Form

def isPlain (c : Char) : Bool := c.isAlphanum || c = '*' || c = '-' || c = '.' || c = '_'

def encodeChar (c : Char) : List Char :=
  if isPlain c then [c] else if c = ' ' then ['+'] else Percent.encodeChar c

def encode (cs : List Char) : List Char := cs.flatMap encodeChar

def decode (cs : List Char) : String :=
  Utf8.decodeLossy (Percent.decode (cs.map fun c => if c = '+' then ' ' else c))

def encodePair (pair : String × String) : List Char :=
  encode pair.1.toList ++ '=' :: encode pair.2.toList

/-- Reads what stands between two ampersands; without an equals sign the value is empty. -/
def decodePair (cs : List Char) : String × String :=
  let (name, value) := cutOnce '=' cs
  (decode name, decode (value.getD []))

def append (text : List Char) (pair : String × String) : List Char :=
  if text.isEmpty then encodePair pair else text ++ '&' :: encodePair pair

def render (pairs : List (String × String)) : List Char := pairs.foldl append []

/-- The pairs of a text; nothing between two ampersands is no pair. -/
def parse (text : List Char) : List (String × String) :=
  ((pieces '&' text).filter (· ≠ [])).map decodePair

end MarketFeed.Form
