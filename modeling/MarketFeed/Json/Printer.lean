import MarketFeed.Json
import MarketFeed.Json.Quoted

/-!
# Writing JSON texts

The compact text of a value: no space between tokens, members in the given order, strings with
as few escapes as possible.
-/

namespace MarketFeed.Json

def quote (s : String) : String :=
  String.ofList ('"' :: Quoted.encode s.toList ++ ['"'])

def renderMembers (members : List (String × String)) : String :=
  "\x7b" ++ ",".intercalate (members.map fun m => quote m.1 ++ ":" ++ m.2) ++ "\x7d"

def renderItems (items : List String) : String :=
  "[" ++ ",".intercalate items ++ "]"

mutual

def render : Json → String
  | null => "null"
  | bool b => if b then "true" else "false"
  | number n => n.render
  | string s => quote s
  | array items => renderItems (renderAll items)
  | object members => renderMembers (renderValues members)

def renderAll : List Json → List String
  | [] => []
  | x :: xs => render x :: renderAll xs

def renderValues : List (String × Json) → List (String × String)
  | [] => []
  | (k, v) :: rest => (k, render v) :: renderValues rest

end

/-- A character beyond ASCII as an escape, or as a pair of them above U+FFFF. -/
def escapeBeyondAscii (c : Char) : List Char :=
  let unit (n : Nat) : List Char :=
    ['\\', 'u'] ++ [n / 4096, n / 256 % 16, n / 16 % 16, n % 16].map Hex.digit
  let n := c.toNat
  if n < 0x7F then [c]
  else if n < 0x10000 then unit n
  else unit (0xD800 + (n - 0x10000) / 0x400) ++ unit (0xDC00 + (n - 0x10000) % 0x400)

def renderAscii (j : Json) : String :=
  String.ofList (j.render.toList.flatMap escapeBeyondAscii)

end MarketFeed.Json
