import MarketFeed.Json.Numeral
import MarketFeed.Json.Quoted

/-!
# Tokens of a JSON text

`tokens?` cuts a text into brackets, separators and scalars. Only space, tab, line feed and
carriage return may stand between them.
-/

namespace MarketFeed.Json

inductive Token where
  | openArray
  | closeArray
  | openObject
  | closeObject
  | colon
  | comma
  | scalar (value : Json)
  deriving Repr

namespace Token

def isGap (c : Char) : Bool := c = ' ' || c = '\t' || c = '\n' || c = '\r'

def mark? : Char → Option Token
  | '[' => some openArray
  | ']' => some closeArray
  | '{' => some openObject
  | '}' => some closeObject
  | ':' => some colon
  | ',' => some comma
  | _ => none

def string? (cs : List Char) : Option (Token × List Char) :=
  match Quoted.decode cs with
  | some (s, rest) => some (scalar (.string (String.ofList s)), rest)
  | none => none

def number? (cs : List Char) : Option (Token × List Char) :=
  match Literal.read? cs with
  | some (l, rest) => match l.number? with
    | some n => some (scalar (.number n), rest)
    | none => none
  | none => none

def next? : List Char → Option (Token × List Char)
  | 'n' :: 'u' :: 'l' :: 'l' :: rest => some (scalar .null, rest)
  | 't' :: 'r' :: 'u' :: 'e' :: rest => some (scalar (.bool true), rest)
  | 'f' :: 'a' :: 'l' :: 's' :: 'e' :: rest => some (scalar (.bool false), rest)
  | '"' :: rest => string? rest
  | [] => none
  | c :: rest => match mark? c with
    | some t => some (t, rest)
    | none => number? (c :: rest)

theorem length_lt_of_next? {cs r : List Char} {t : Token} (h : next? cs = some (t, r)) :
    r.length < cs.length := by
  unfold next? at h
  split at h
  · simp only [Option.some.injEq, Prod.mk.injEq] at h
    simp only [← h.2, List.length_cons]
    omega
  · simp only [Option.some.injEq, Prod.mk.injEq] at h
    simp only [← h.2, List.length_cons]
    omega
  · simp only [Option.some.injEq, Prod.mk.injEq] at h
    simp only [← h.2, List.length_cons]
    omega
  · rename_i rest
    unfold string? at h
    cases hd : Quoted.decode rest with
    | none => simp [hd] at h
    | some x =>
      have := Quoted.length_lt_of_decode x.1 x.2 hd
      simp only [hd, Option.some.injEq, Prod.mk.injEq] at h
      simp only [← h.2, List.length_cons]
      omega
  · simp at h
  · split at h
    · simp only [Option.some.injEq, Prod.mk.injEq] at h
      simp [← h.2]
    · unfold number? at h
      split at h
      · rename_i l rest hl
        have := Literal.length_lt_of_read? hl
        split at h
        · simp only [Option.some.injEq, Prod.mk.injEq] at h
          rw [← h.2]
          exact this
        · simp at h
      · simp at h

end Token

theorem length_dropWhile_le (p : Char → Bool) (cs : List Char) :
    (cs.dropWhile p).length ≤ cs.length := by
  have := congrArg List.length (List.takeWhile_append_dropWhile (p := p) (l := cs))
  simp only [List.length_append] at this
  omega

/-- All tokens of a text, or nothing if a part of it is no token. -/
def tokens? (cs : List Char) : Option (List Token) :=
  let start := cs.dropWhile Token.isGap
  if start.isEmpty then some []
  else
    match _h : Token.next? start with
    | none => none
    | some (t, rest) => (tokens? rest).map (t :: ·)
termination_by cs.length
decreasing_by
  have h₁ := length_dropWhile_le Token.isGap cs
  have h₂ := Token.length_lt_of_next? _h
  exact Nat.lt_of_lt_of_le h₂ h₁

end MarketFeed.Json
