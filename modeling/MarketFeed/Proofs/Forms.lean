import Mathlib
import MarketFeed.Proofs.Bytes
import MarketFeed.Proofs.Pieces
import MarketFeed.Url

/-!
# Forms that are read back

What is written into a form, or appended to a query, is read from it again, whatever characters it
is made of.
-/

namespace MarketFeed

/-! ## Cuts -/

inductive Cut (separator : Char) (cs : List Char) : List Char × Option (List Char) → Prop
  | whole (h : separator ∉ cs) : Cut separator cs (cs, none)
  | parts {first rest : List Char} (h : separator ∉ first) (e : cs = first ++ separator :: rest) :
      Cut separator cs (first, some rest)

theorem cutOnce_of_not_mem {separator : Char} {cs : List Char} (h : separator ∉ cs) :
    cutOnce separator cs = (cs, none) := by
  have none : cs.dropWhile (· ≠ separator) = [] := by
    rw [List.dropWhile_eq_nil_iff]
    intro c hc
    simpa using ne_of_mem_of_not_mem hc h
  unfold cutOnce
  rw [none]

theorem cutOnce_append_cons {separator : Char} {first : List Char} (h : separator ∉ first)
    (rest : List Char) : cutOnce separator (first ++ separator :: rest) = (first, some rest) := by
  have kept : ∀ c ∈ first, decide (c ≠ separator) = true := by
    intro c hc
    simpa using ne_of_mem_of_not_mem hc h
  have dropped : (first ++ separator :: rest).dropWhile (· ≠ separator) = separator :: rest := by
    rw [List.dropWhile_append_of_pos kept]
    simp
  have taken : (first ++ separator :: rest).takeWhile (· ≠ separator) = first := by
    rw [List.takeWhile_append_of_pos kept]
    simp
  unfold cutOnce
  rw [dropped, taken]

def led (separator : Char) (text : Option (List Char)) : List Char :=
  (text.map (separator :: ·)).getD []

theorem cutOnce_append_led {separator : Char} {first : List Char} (h : separator ∉ first)
    (rest : Option (List Char)) :
    cutOnce separator (first ++ led separator rest) = (first, rest) := by
  cases rest with
  | none => exact (congrArg _ (List.append_nil first)).trans (cutOnce_of_not_mem h)
  | some rest => exact cutOnce_append_cons h rest

namespace Cut

variable {separator c : Char} {cs : List Char} {parts : List Char × Option (List Char)}

theorem not_mem (h : Cut separator cs parts) : separator ∉ parts.1 := by
  cases h with
  | whole h => exact h
  | parts h => exact h

end Cut

/-! ## Percent signs -/

namespace Hex

theorem value?_capital : ∀ n < 16, value? (capital n) = some n := by decide

theorem byte?_capital (b : UInt8) :
    byte? (capital (b.toNat / 16)) (capital (b.toNat % 16)) = some b := by
  have below := b.toNat_lt
  have high := value?_capital (b.toNat / 16) (by omega)
  have low := value?_capital (b.toNat % 16) (by omega)
  have whole : 16 * (b.toNat / 16) + b.toNat % 16 = b.toNat := by omega
  unfold byte?
  rw [high, low]
  simp [whole]

end Hex

namespace Percent

variable {keeps : Char → Bool} {cs : List Char}

theorem mem_encodeChar {c d : Char} (h : d ∈ encodeChar c) :
    d = '%' ∨ ∃ n < 16, d = Hex.capital n := by
  obtain ⟨b, -, hb⟩ := List.mem_flatMap.1 h
  have below := b.toNat_lt
  simp only [encodeByte, List.mem_cons, List.not_mem_nil, or_false] at hb
  rcases hb with rfl | rfl | rfl
  · exact .inl rfl
  · exact .inr ⟨_, by omega, rfl⟩
  · exact .inr ⟨_, by omega, rfl⟩

theorem decode_cons {c : Char} (h : c ≠ '%') (cs : List Char) :
    decode (c :: cs) = String.utf8EncodeChar c ++ decode cs := by
  rw [decode]
  simp [h]

theorem decode_encodeByte (b : UInt8) (cs : List Char) :
    decode (encodeByte b ++ cs) = b :: decode cs := by
  show decode ('%' :: _ :: _ :: cs) = _
  rw [decode, Hex.byte?_capital]

theorem decode_encodeChar (c : Char) (cs : List Char) :
    decode (encodeChar c ++ cs) = String.utf8EncodeChar c ++ decode cs := by
  unfold encodeChar
  induction String.utf8EncodeChar c with
  | nil => rfl
  | cons b bs ih =>
    rw [List.flatMap_cons, List.append_assoc, decode_encodeByte, ih]
    rfl

end Percent

/-! ## Pairs -/

namespace Form

theorem isPlain_capital : ∀ n < 16, isPlain (Hex.capital n) = true := by decide

theorem mem_encode {cs : List Char} {d : Char} (h : d ∈ encode cs) :
    isPlain d = true ∨ d = '+' ∨ d = '%' := by
  obtain ⟨c, -, hd⟩ := List.mem_flatMap.1 h
  unfold encodeChar at hd
  split_ifs at hd with plain space
  · exact .inl (List.mem_singleton.1 hd ▸ plain)
  · exact .inr (.inl (List.mem_singleton.1 hd))
  · obtain percent | ⟨n, small, rfl⟩ := Percent.mem_encodeChar hd
    · exact .inr (.inr percent)
    · exact .inl (isPlain_capital n small)

theorem unplus_encodeChar (c : Char) :
    (Percent.encodeChar c).map (fun d => if d = '+' then ' ' else d) = Percent.encodeChar c := by
  refine (List.map_congr_left fun d hd => if_neg ?_).trans (List.map_id _)
  rintro rfl
  rcases Percent.mem_encodeChar hd with h | ⟨n, small, h⟩
  · exact absurd h (by decide)
  · have plain := isPlain_capital n small
    rw [← h] at plain
    exact absurd plain (by decide)

theorem decode_unplus_encode (cs : List Char) :
    Percent.decode ((encode cs).map fun c => if c = '+' then ' ' else c) = Utf8.encode cs := by
  induction cs with
  | nil => rfl
  | cons c cs ih =>
    unfold encode Utf8.encode at ih ⊢
    rw [List.flatMap_cons, List.flatMap_cons, List.map_append, ← ih]
    unfold encodeChar
    split_ifs with plain space
    · have plus : c ≠ '+' := by
        rintro rfl
        exact absurd plain (by decide)
      have percent : c ≠ '%' := by
        rintro rfl
        exact absurd plain (by decide)
      rw [List.map_singleton, if_neg plus]
      exact Percent.decode_cons percent _
    · subst space
      exact Percent.decode_cons (by decide) _
    · rw [unplus_encodeChar]
      exact Percent.decode_encodeChar c _

theorem decode_encode (cs : List Char) : decode (encode cs) = String.ofList cs := by
  unfold decode
  rw [decode_unplus_encode, Utf8.decodeLossy_encode]

end Form

/-! ## Queries -/

namespace Url

variable (u : Url) (pair : String × String)

theorem ensurePair_eq : u.ensurePair pair =
    if pair.2 = "" ∨ pair.1 ∈ u.pairs.map Prod.fst then u else u.addPair pair := by
  have named : u.pairs.any (·.1 == pair.1) = true ↔ pair.1 ∈ u.pairs.map Prod.fst := by simp
  unfold ensurePair
  simp only [Bool.or_eq_true, decide_eq_true_eq, named]

end Url

end MarketFeed
