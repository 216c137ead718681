/-!
# Letter case

Case mapping of ASCII letters; other characters stay as they are.
-/

namespace MarketFeed

def asciiLower (cs : List Char) : List Char := cs.map Char.toLower

def sameUpToCase (s t : String) : Bool :=
  asciiLower s.toList == asciiLower t.toList

end MarketFeed
