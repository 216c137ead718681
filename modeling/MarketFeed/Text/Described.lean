import MarketFeed.Text.Shapeless

/-!
# Texts for people to read

A text in quotes in which every character can be seen: quotes, backslashes and characters without
a shape of their own are written as escapes. Secrets are not shown at all.
-/

namespace MarketFeed

def describeChar (c : Char) : List Char :=
  if c = '"' then ['\\', '"']
  else if c = '\\' then ['\\', '\\']
  else if c = '\n' then ['\\', 'n']
  else if c = '\r' then ['\\', 'r']
  else if c = '\t' then ['\\', 't']
  else if c.toNat = 0 then ['\\', '0']
  else if isShapeless c then
    ['\\', 'u', '\x7b'] ++ Nat.toDigits 16 c.toNat ++ ['\x7d']
  else [c]

def describeText (s : String) : String :=
  String.ofList ('"' :: s.toList.flatMap describeChar ++ ['"'])

def describeBool (b : Bool) : String := if b then "true" else "false"

def describeRecord (name : String) (fields : List (String × String)) : String :=
  name ++ " \x7b " ++ ", ".intercalate (fields.map fun f => f.1 ++ ": " ++ f.2) ++ " \x7d"

def redacted : String := describeText "[REDACTED]"

end MarketFeed
