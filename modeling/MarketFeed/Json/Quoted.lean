import MarketFeed.Text.Hex

/-!
# Quoted strings

`encode` writes the body of a JSON string with as few escapes as the format allows: the quote, the
backslash and the control characters below U+0020. `decode` reads a body up to its closing quote
and knows every escape, with a pair of surrogates for a character above U+FFFF.
-/

namespace MarketFeed.Json.Quoted

def encodeChar (c : Char) : List Char :=
  if c = '"' then ['\\', '"']
  else if c = '\\' then ['\\', '\\']
  else if c = '\x08' then ['\\', 'b']
  else if c = '\x0c' then ['\\', 'f']
  else if c = '\n' then ['\\', 'n']
  else if c = '\r' then ['\\', 'r']
  else if c = '\t' then ['\\', 't']
  else if c.toNat < 0x20 then
    ['\\', 'u', '0', '0', Hex.digit (c.toNat / 16), Hex.digit (c.toNat % 16)]
  else [c]

def encode (cs : List Char) : List Char := cs.flatMap encodeChar

def codeUnit? (a b c d : Char) : Option Nat :=
  match Hex.value? a, Hex.value? b, Hex.value? c, Hex.value? d with
  | some a, some b, some c, some d => some (a * 4096 + b * 256 + c * 16 + d)
  | _, _, _, _ => none

def isHighSurrogate (n : Nat) : Bool := 0xD800 ≤ n && n ≤ 0xDBFF

def isLowSurrogate (n : Nat) : Bool := 0xDC00 ≤ n && n ≤ 0xDFFF

def ofSurrogates (high low : Nat) : Char :=
  Char.ofNat (0x10000 + (high - 0xD800) * 0x400 + (low - 0xDC00))

def shortEscape? : Char → Option Char
  | '"' => some '"'
  | '\\' => some '\\'
  | '/' => some '/'
  | 'b' => some '\x08'
  | 'f' => some '\x0c'
  | 'n' => some '\n'
  | 'r' => some '\r'
  | 't' => some '\t'
  | _ => none

def consTo (c : Char) : Option (List Char × List Char) → Option (List Char × List Char)
  | some (cs, rest) => some (c :: cs, rest)
  | none => none

/-- Reads a body up to its closing quote, and gives what follows the quote. -/
def decode : List Char → Option (List Char × List Char)
  | [] => none
  | '"' :: rest => some ([], rest)
  | '\\' :: 'u' :: a :: b :: c :: d :: rest =>
    match codeUnit? a b c d with
    | none => none
    | some high =>
      if isHighSurrogate high then
        match rest with
        | '\\' :: 'u' :: e :: f :: g :: h :: rest =>
          match codeUnit? e f g h with
          | some low =>
            if isLowSurrogate low then consTo (ofSurrogates high low) (decode rest) else none
          | none => none
        | _ => none
      else if isLowSurrogate high then none
      else consTo (Char.ofNat high) (decode rest)
  | '\\' :: c :: rest =>
    match shortEscape? c with
    | some c => consTo c (decode rest)
    | none => none
  | c :: rest => if c.toNat < 0x20 then none else if c = '\\' then none else consTo c (decode rest)

theorem consTo_eq_some {c : Char} {x : Option (List Char × List Char)} {s r : List Char}
    (h : consTo c x = some (s, r)) : ∃ t, x = some (t, r) := by
  match x, h with
  | some (t, _), h =>
    simp only [consTo, Option.some.injEq, Prod.mk.injEq] at h
    exact ⟨t, by rw [h.2]⟩

theorem length_lt_of_decode {cs : List Char} :
    ∀ s r, decode cs = some (s, r) → r.length < cs.length := by
  fun_induction decode cs with
  | case1 => simp
  | case2 => simp_all
  | _ =>
    simp only [List.length_cons]
    grind [consTo_eq_some]

end MarketFeed.Json.Quoted
