import Mathlib
import MarketFeed.Json.Parser
import MarketFeed.Json.Printer
import MarketFeed.Proofs.Literals

/-!
# Texts of values

A string that is written is read back, whatever stands in it and behind it. A text `Reads` as a
value if the reader, having come to it, is done with that value right behind it. From the items of an
array and from the members of an object this passes to the container.
-/

namespace MarketFeed

/-! ## Strings -/

theorem Hex.value?_digit : ∀ n < 16, value? (digit n) = some n := by decide

namespace Json.Quoted

theorem decode_plain {c : Char} (hq : c ≠ '"') (hb : c ≠ '\\') (hc : ¬ c.toNat < 0x20)
    (rest : List Char) : decode (c :: rest) = consTo c (decode rest) := by
  rw [decode.eq_def]
  split <;> simp_all

theorem decode_short {c l : Char} (hl : l ≠ 'u') (h : shortEscape? l = some c) (rest : List Char) :
    decode ('\\' :: l :: rest) = consTo c (decode rest) := by
  rw [decode.eq_def]
  split
  case h_5 hne heq =>
    simp only [List.cons.injEq] at heq
    exact absurd heq.2.symm (hne l rest heq.1.symm)
  all_goals simp_all

theorem decode_control {c : Char} (h : c.toNat < 0x20) (rest : List Char) :
    decode ('\\' :: 'u' :: '0' :: '0' :: Hex.digit (c.toNat / 16) :: Hex.digit (c.toNat % 16) :: rest) =
      consTo c (decode rest) := by
  have zero : Hex.value? '0' = some 0 := by decide
  have high := Hex.value?_digit (c.toNat / 16) (by omega)
  have low := Hex.value?_digit (c.toNat % 16) (by omega)
  have unit : codeUnit? '0' '0' (Hex.digit (c.toNat / 16)) (Hex.digit (c.toNat % 16)) =
      some c.toNat := by
    unfold codeUnit?
    rw [zero, high, low]
    simp
    omega
  have notHigh : isHighSurrogate c.toNat = false := by
    simp [isHighSurrogate]
    omega
  have notLow : isLowSurrogate c.toNat = false := by
    simp [isLowSurrogate]
    omega
  rw [decode, unit]
  simp [notHigh, notLow]

theorem decode_encodeChar (c : Char) (rest : List Char) :
    decode (encodeChar c ++ rest) = consTo c (decode rest) := by
  unfold encodeChar
  split_ifs with hq hb h8 hf hn hr ht hc
  · subst hq
    exact decode_short (by decide) rfl rest
  · subst hb
    exact decode_short (by decide) rfl rest
  · subst h8
    exact decode_short (by decide) rfl rest
  · subst hf
    exact decode_short (by decide) rfl rest
  · subst hn
    exact decode_short (by decide) rfl rest
  · subst hr
    exact decode_short (by decide) rfl rest
  · subst ht
    exact decode_short (by decide) rfl rest
  · exact decode_control hc rest
  · exact decode_plain hq hb hc rest

theorem decode_encode (s rest : List Char) :
    decode (encode s ++ '"' :: rest) = some (s, rest) := by
  induction s with
  | nil => rfl
  | cons c s ih =>
    have first : encode (c :: s) = encodeChar c ++ encode s := List.flatMap_cons
    rw [first, List.append_assoc, decode_encodeChar, ih]
    rfl

end Json.Quoted

namespace Json

/-! ## Reading on -/

def readOn (s : Reader.State) (cs : List Char) : Option Reader.State :=
  (tokens? cs).bind (·.foldlM Reader.step s)

theorem Token.isGap_iff {c : Char} :
    isGap c = true ↔ c = ' ' ∨ c = '\t' ∨ c = '\n' ∨ c = '\r' := by
  simp [isGap, or_assoc]

theorem tokens?_start {cs : List Char} (ne : cs ≠ []) (hg : ∀ c ∈ cs.head?, Token.isGap c = false) :
    tokens? cs = (Token.next? cs).bind fun next => (tokens? next.2).map (next.1 :: ·) := by
  obtain ⟨c, cs, rfl⟩ := List.exists_cons_of_ne_nil ne
  have start : (c :: cs).dropWhile Token.isGap = c :: cs :=
    List.dropWhile_cons_of_neg (by simp [hg c rfl])
  rw [tokens?]
  simp only [start, List.isEmpty_cons, Bool.false_eq_true, if_false]
  split
  · rename_i none
    rw [start] at none
    rw [none]
    rfl
  · rename_i next
    rw [start] at next
    rw [next]
    rfl

theorem tokens?_next {cs rest : List Char} {t : Token} (hg : ∀ c ∈ cs.head?, Token.isGap c = false)
    (h : Token.next? cs = some (t, rest)) : tokens? cs = (tokens? rest).map (t :: ·) := by
  have ne : cs ≠ [] := by
    rintro rfl
    cases h
  rw [tokens?_start ne hg, h]
  rfl

theorem readOn_next {s : Reader.State} {cs rest : List Char} {t : Token}
    (hg : ∀ c ∈ cs.head?, Token.isGap c = false) (h : Token.next? cs = some (t, rest)) :
    readOn s cs = (Reader.step s t).bind (readOn · rest) := by
  unfold readOn
  rw [tokens?_next hg h]
  cases tokens? rest <;> cases h : Reader.step s t <;> simp [h]

theorem readOn_mark (s : Reader.State) {c : Char} {t : Token} (h : Token.mark? c = some t)
    (rest : List Char) : readOn s (c :: rest) = (Reader.step s t).bind (readOn · rest) := by
  apply readOn_next
  · rintro c' ⟨⟩
    unfold Token.mark? at h
    split at h <;> cases h
    all_goals decide
  · unfold Token.mark? at h
    split at h <;> cases h
    all_goals rfl

theorem readOn_quote (s : Reader.State) (text : String) (rest : List Char) :
    readOn s ((quote text).toList ++ rest) =
      (Reader.step s (.scalar (.string text))).bind (readOn · rest) := by
  have spelled : (quote text).toList ++ rest = '"' :: (Quoted.encode text.toList ++ '"' :: rest) := by
    simp [quote]
  rw [spelled]
  apply readOn_next
  · rintro c ⟨⟩
    decide
  · show Token.string? _ = _
    unfold Token.string?
    rw [Quoted.decode_encode]
    simp only [String.ofList_toList]

/-! ## Values -/

def Delimited (rest : List Char) : Prop := ∀ c ∈ rest.head?, c = ',' ∨ c = ']' ∨ c = '}'

theorem delimited_texts (texts : List String) {close : Char} (h : close = ']' ∨ close = '}')
    (rest : List Char) :
    Delimited ((texts.map String.toList).flatMap (',' :: ·) ++ close :: rest) := by
  cases texts with
  | nil => rintro c ⟨⟩; exact .inr h
  | cons => rintro c ⟨⟩; exact .inl rfl

inductive Expects : Reader.State → List Reader.Level → Prop where
  | value (levels : List Reader.Level) : Expects (.value levels) levels
  | firstItem (levels : List Reader.Level) : Expects (.firstItem levels) (.array [] :: levels)

theorem Expects.step {s : Reader.State} {levels : List Reader.Level} (h : Expects s levels)
    {t : Token} (ht : t ≠ .closeArray) : Reader.step s t = Reader.startValue levels t := by
  cases h with
  | value => rfl
  | firstItem =>
    cases t with
    | closeArray => exact absurd rfl ht
    | _ => rfl

/-- A text reads as a value in which at most so many containers are open at once. -/
def Reads (depth : Nat) (text : String) (v : Json) : Prop :=
  ∀ ⦃s levels rest⦄, Expects s levels → levels.length + depth ≤ Reader.maxDepth → Delimited rest →
    readOn s (text.toList ++ rest) = readOn (.done v levels) rest

theorem Reads.mono {depth depth' : Nat} {text : String} {v : Json} (h : Reads depth text v)
    (hd : depth ≤ depth') : Reads depth' text v :=
  fun _ _ _ hs hl => h hs ((Nat.add_le_add_left hd _).trans hl)

theorem Reads.parse? {depth : Nat} {text : String} {v : Json} (h : Reads depth text v)
    (hd : depth ≤ Reader.maxDepth) : parse? text = some v := by
  have whole : readOn (.value []) text.toList = some (.done v []) := by
    have end' : Delimited [] := by rintro c ⟨⟩
    have empty : tokens? [] = some [] := by rw [tokens?]; rfl
    have run := h (.value []) (by simpa using hd) end'
    rw [List.append_nil] at run
    rw [run]
    unfold readOn
    rw [empty]
    rfl
  unfold readOn at whole
  unfold Json.parse?
  show (tokens? text.toList).bind (fun ts => (ts.foldlM Reader.step _).bind _) = _
  rw [← Option.bind_assoc, whole]
  rfl

theorem reads_quote (s : String) : Reads 0 (quote s) (.string s) := by
  intro state levels rest hs _ _
  rw [readOn_quote, hs.step (by simp)]
  rfl

/-! ## Numbers -/

theorem Delimited.ends {rest : List Char} (h : Delimited rest) : Literal.Ends rest := by
  refine ⟨fun c hc => ?_, fun c hc => ?_⟩
  all_goals
    obtain rfl | rfl | rfl := h c hc <;> simp

theorem Token.next?_literal {l : Literal} {text rest : List Char} (hl : l.Spells text)
    (hr : Literal.Ends rest) :
    (∀ c ∈ (text ++ rest).head?, isGap c = false) ∧
      next? (text ++ rest) = l.number?.map fun n => (scalar (.number n), rest) := by
  have read := Literal.read?_spelled hl hr
  have number : number? (text ++ rest) = l.number?.map fun n => (scalar (.number n), rest) := by
    unfold number?
    rw [read]
    dsimp only
    cases l.number? <;> rfl
  obtain ⟨c, cs, first, starts⟩ : ∃ c cs, text ++ rest = c :: cs ∧ (c = '-' ∨ c.isDigit = true) := by
    obtain ⟨fraction, power, rfl, ⟨whole, -⟩, -⟩ := hl
    obtain ⟨c, hc, digit⟩ := whole.head_digit (fraction ++ power ++ rest)
    cases l.negative with
    | true => exact ⟨'-', _, rfl, .inl rfl⟩
    | false =>
      obtain ⟨cs, hcs⟩ := List.head?_eq_some_iff.1 hc
      refine ⟨c, cs, ?_, .inr digit⟩
      rw [← hcs]
      simp [Literal.signText]
  rw [first] at number ⊢
  have mark : mark? c = none := by
    unfold mark?
    split
    case h_7 => rfl
    all_goals obtain h | h := starts <;> cases h
  refine ⟨?_, ?_⟩
  · rintro c' ⟨⟩
    rw [Bool.eq_false_iff]
    intro gap
    obtain rfl | rfl | rfl | rfl := isGap_iff.1 gap <;> obtain h | h := starts <;> cases h
  · unfold next?
    split
    case h_5 h => cases h
    case h_6 h =>
      cases h
      rw [mark]
      exact number
    all_goals
      rename_i h
      cases h
      obtain h | h := starts <;> cases h

theorem reads_literal {l : Literal} {n : Number} {text : String} (hl : l.Spells text.toList)
    (hn : l.number? = some n) : Reads 0 text (.number n) := by
  intro s levels rest hs _ hr
  obtain ⟨starts, next⟩ := Token.next?_literal hl hr.ends
  rw [hn, Option.map_some] at next
  rw [readOn_next starts next, hs.step (by simp)]
  rfl

theorem parse?_literal {l : Literal} {text : String} (h : l.Spells text.toList) :
    parse? text = l.number?.map .number := by
  cases number : l.number? with
  | some n => exact (reads_literal h number).parse? (by decide)
  | none =>
    obtain ⟨starts, next⟩ := Token.next?_literal h Literal.Ends.nil
    rw [List.append_nil, number] at next
    rw [List.append_nil] at starts
    have ne : text.toList ≠ [] := by
      obtain ⟨fraction, power, spelled, ⟨⟨digits, -⟩, -⟩, -⟩ := h
      simp [spelled, digits]
    unfold parse?
    rw [tokens?_start ne starts, next]
    rfl

theorem parse?_of_read? {l : Literal} {n : Number} {text : String}
    (hl : Literal.read? text.toList = some (l, [])) (hn : l.number? = some n) :
    parse? text = some (.number n) := by
  obtain ⟨spelled, split, spells⟩ := Literal.spells_of_read? hl
  rw [List.append_nil] at split
  rw [parse?_literal (split ▸ spells), hn]
  rfl

/-! ## Containers -/

theorem intercalate_cons {α : Type} (separator : α) (l : List α) (ls : List (List α)) :
    [separator].intercalate (l :: ls) = l ++ ls.flatMap (separator :: ·) := by
  induction ls generalizing l with
  | nil => simp
  | cons l' ls ih =>
    rw [List.intercalate_cons_cons, ih]
    simp

section
open Reader

variable {depth : Nat} {levels : List Level}

theorem readOn_items {texts : List String} {values : List Json}
    (h : List.Forall₂ (Reads depth) texts values) (hl : levels.length + (depth + 1) ≤ maxDepth)
    (v : Json) (items : List Json) (rest : List Char) :
    readOn (.done v (.array items :: levels))
        ((texts.map String.toList).flatMap (',' :: ·) ++ ']' :: rest) =
      readOn (.done (.array ((v :: items).reverse ++ values)) levels) rest := by
  induction h generalizing v items with
  | nil =>
    rw [List.append_nil]
    exact readOn_mark (c := ']') (t := .closeArray) _ rfl rest
  | @cons text w texts values first others ih =>
    have room : (Level.array (v :: items) :: levels).length + depth ≤ maxDepth := by
      rw [List.length_cons]
      omega
    rw [List.map_cons, List.flatMap_cons, List.cons_append, List.cons_append, List.append_assoc,
      readOn_mark (t := .comma) _ rfl]
    show readOn (.value (.array (v :: items) :: levels)) _ = _
    rw [first (.value _) room (delimited_texts texts (.inl rfl) rest), ih]
    simp

theorem Reads.array {texts : List String} {values : List Json}
    (h : List.Forall₂ (Reads depth) texts values) :
    Reads (depth + 1) (renderItems texts) (.array values) := by
  intro s levels rest hs hl _
  have spelled : (renderItems texts).toList ++ rest =
      '[' :: ([','].intercalate (texts.map String.toList) ++ ']' :: rest) := by
    simp [renderItems, String.toList_intercalate]
  have opened : Reader.step s .openArray = some (.firstItem levels) := by
    rw [hs.step (by simp)]
    exact if_pos (by omega)
  rw [spelled, readOn_mark (t := .openArray) s rfl, opened, Option.bind_some]
  cases h with
  | nil => exact readOn_mark (c := ']') (t := .closeArray) _ rfl rest
  | @cons text v texts values first others =>
    have room : (Level.array [] :: levels).length + depth ≤ maxDepth := by
      rw [List.length_cons]
      omega
    rw [List.map_cons, intercalate_cons, List.append_assoc,
      first (.firstItem levels) room (delimited_texts texts (.inl rfl) rest),
      readOn_items others hl]
    rfl

def ReadsMember (depth : Nat) (m : String × String) (member : String × Json) : Prop :=
  m.1 = member.1 ∧ Reads depth m.2 member.2

theorem readOn_member {s : State} {members : List (String × Json)} {m : String × String}
    {member : String × Json} (h : ReadsMember depth m member)
    (hs : Reader.step s (.scalar (.string member.1)) = some (.colon members member.1 levels))
    (hl : levels.length + (depth + 1) ≤ maxDepth) {rest : List Char} (hr : Delimited rest) :
    readOn s ((quote m.1 ++ ":" ++ m.2).toList ++ rest) =
      readOn (.done member.2 (.object members member.1 :: levels)) rest := by
  obtain ⟨key, text⟩ := m
  obtain ⟨key, v⟩ := member
  obtain ⟨rfl, reads⟩ := h
  have spelled : (quote key ++ ":" ++ text).toList ++ rest =
      (quote key).toList ++ ':' :: (text.toList ++ rest) := by simp
  have room : (Level.object members key :: levels).length + depth ≤ maxDepth := by
    rw [List.length_cons]
    omega
  rw [spelled, readOn_quote, hs, Option.bind_some, readOn_mark (t := .colon) _ rfl]
  exact reads (.value _) room hr

theorem readOn_members {ms : List (String × String)} {values : List (String × Json)}
    (h : List.Forall₂ (ReadsMember depth) ms values) (hl : levels.length + (depth + 1) ≤ maxDepth)
    (key : String) (v : Json) (members : List (String × Json)) (rest : List Char) :
    readOn (.done v (.object members key :: levels))
        (((ms.map fun m => quote m.1 ++ ":" ++ m.2).map String.toList).flatMap (',' :: ·) ++
          '}' :: rest) =
      readOn (.done (ofMembers (((key, v) :: members).reverse ++ values)) levels) rest := by
  induction h generalizing key v members with
  | nil =>
    rw [List.append_nil]
    exact readOn_mark (c := '}') (t := .closeObject) _ rfl rest
  | @cons m member ms values first others ih =>
    rw [List.map_cons, List.map_cons, List.flatMap_cons, List.cons_append, List.cons_append,
      List.append_assoc, readOn_mark (t := .comma) _ rfl]
    show readOn (.key ((key, v) :: members) levels) _ = _
    rw [readOn_member first rfl hl (delimited_texts _ (.inr rfl) rest), ih]
    simp

theorem Reads.object {ms : List (String × String)} {values : List (String × Json)}
    (h : List.Forall₂ (ReadsMember depth) ms values) :
    Reads (depth + 1) (renderMembers ms) (ofMembers values) := by
  intro s levels rest hs hl _
  have spelled : (renderMembers ms).toList ++ rest =
      '{' :: ([','].intercalate ((ms.map fun m => quote m.1 ++ ":" ++ m.2).map String.toList) ++
        '}' :: rest) := by
    simp [renderMembers, String.toList_intercalate]
  have opened : Reader.step s .openObject = some (.firstKey levels) := by
    rw [hs.step (by simp)]
    exact if_pos (by omega)
  rw [spelled, readOn_mark (t := .openObject) s rfl, opened, Option.bind_some]
  cases h with
  | nil => exact readOn_mark (c := '}') (t := .closeObject) _ rfl rest
  | @cons m member ms values first others =>
    rw [List.map_cons, List.map_cons, intercalate_cons, List.append_assoc,
      readOn_member first rfl hl (delimited_texts _ (.inr rfl) rest), readOn_members others hl]
    rfl

end

end Json

end MarketFeed
