import Mathlib
import MarketFeed.Text.Utf8

/-!
# Bytes of texts

UTF-8 is read as it is written: the bytes of a text are read as that text, and no other bytes are
read as one.
-/

namespace MarketFeed.Utf8

/-! ## Spelling a character -/

/-- The bytes that spell a code point: its digits to the base 64, of which the first says how many
follow. None has fewer digits than these, and there are no surrogates. -/
inductive Spells : Nat → List UInt8 → Prop
  | one {k} (small : k < 0x80) : Spells k [.ofNat k]
  | two {k t} (least : 2 ≤ k) (hk : k < 32) (ht : t < 64) :
      Spells (64 * k + t) [.ofNat (k + 0xC0), .ofNat (t + 0x80)]
  | three {k t u} (hk : k < 16) (ht : t < 64) (hu : u < 64) (least : k = 0 → 32 ≤ t)
      (surrogate : k = 13 → t < 32) : Spells (64 * (64 * k + t) + u)
        [.ofNat (k + 0xE0), .ofNat (t + 0x80), .ofNat (u + 0x80)]
  | four {k t u v} (hk : k < 5) (ht : t < 64) (hu : u < 64) (hv : v < 64) (least : k = 0 → 16 ≤ t)
      (greatest : k = 4 → t < 16) : Spells (64 * (64 * (64 * k + t) + u) + v)
        [.ofNat (k + 0xF0), .ofNat (t + 0x80), .ofNat (u + 0x80), .ofNat (v + 0x80)]

theorem utf8EncodeChar_spells (c : Char) : Spells c.toNat (String.utf8EncodeChar c) := by
  have valid : c.toNat.isValidChar := c.valid
  have value : c.val.toNat = c.toNat := rfl
  unfold String.utf8EncodeChar
  unfold Nat.isValidChar at valid
  rw [value]
  generalize c.toNat = n at valid
  dsimp only
  split_ifs with h₁ h₂ h₃
  · exact .one (by omega)
  · have digits : n = 64 * (n / 64 % 32) + n % 64 := by omega
    conv => enter [1]; rw [digits]
    exact .two (by omega) (by omega) (by omega)
  · have digits : n = 64 * (64 * (n / 4096 % 16) + n / 64 % 64) + n % 64 := by omega
    conv => enter [1]; rw [digits]
    exact .three (by omega) (by omega) (by omega) (by omega) (by omega)
  · have digits :
        n = 64 * (64 * (64 * (n / 262144 % 8) + n / 4096 % 64) + n / 64 % 64) + n % 64 := by
      omega
    conv => enter [1]; rw [digits]
    exact .four (by omega) (by omega) (by omega) (by omega) (by omega) (by omega)

theorem Spells.isValidChar {n : Nat} {bs : List UInt8} (h : Spells n bs) : n.isValidChar := by
  unfold Nat.isValidChar
  cases h with
  | one small => omega
  | two least hk ht => omega
  | three hk ht hu least surrogate => omega
  | four hk ht hu hv least greatest => omega

theorem Spells.utf8EncodeChar_eq {n : Nat} {bs : List UInt8} (h : Spells n bs) :
    String.utf8EncodeChar (Char.ofNat n) = bs := by
  have value : (Char.ofNat n).val.toNat = n := (Char.toNat_ofNat n).trans (if_pos h.isValidChar)
  unfold String.utf8EncodeChar
  rw [value]
  dsimp only
  cases h with
  | one small => rw [if_pos (by omega)]
  | @two k t least hk ht =>
    have first : (64 * k + t) / 64 % 32 = k := by omega
    have last : (64 * k + t) % 64 = t := by omega
    rw [if_neg (by omega), if_pos (by omega), first, last]
  | @three k t u hk ht hu least surrogate =>
    have first : (64 * (64 * k + t) + u) / 4096 % 16 = k := by omega
    have second : (64 * (64 * k + t) + u) / 64 % 64 = t := by omega
    have last : (64 * (64 * k + t) + u) % 64 = u := by omega
    rw [if_neg (by omega), if_neg (by omega), if_pos (by omega), first, second, last]
  | @four k t u v hk ht hu hv least greatest =>
    have first : (64 * (64 * (64 * k + t) + u) + v) / 262144 % 8 = k := by omega
    have second : (64 * (64 * (64 * k + t) + u) + v) / 4096 % 64 = t := by omega
    have third : (64 * (64 * (64 * k + t) + u) + v) / 64 % 64 = u := by omega
    have last : (64 * (64 * (64 * k + t) + u) + v) % 64 = v := by omega
    rw [if_neg (by omega), if_neg (by omega), if_neg (by omega), first, second, third, last]

/-! ## Reading a character -/

theorem toNat_ofNat_of_lt {n : Nat} (h : n < 256) : (UInt8.ofNat n).toNat = n := by
  rw [UInt8.toNat_ofNat']
  exact Nat.mod_eq_of_lt h

theorem follow_cons {n least greatest bits t : Nat} {bs : List UInt8} (small : t < 64)
    (low : least ≤ t + 0x80) (high : t + 0x80 ≤ greatest) :
    follow (n + 1) least greatest bits (.ofNat (t + 0x80) :: bs) =
      follow n 0x80 0xBF (64 * bits + t) bs := by
  have rest : (t + 0x80) % 64 = t := by omega
  rw [follow, toNat_ofNat_of_lt (by omega), if_pos ⟨low, high⟩, rest]

theorem follow_eq_some {n least greatest bits v : Nat} {bs rest : List UInt8}
    (hl : 0x80 ≤ least) (hg : greatest ≤ 0xBF)
    (h : follow (n + 1) least greatest bits bs = (some v, rest)) :
    ∃ t bs', t < 64 ∧ least ≤ t + 0x80 ∧ t + 0x80 ≤ greatest ∧
      bs = .ofNat (t + 0x80) :: bs' ∧
      follow n 0x80 0xBF (64 * bits + t) bs' = (some v, rest) := by
  cases bs with
  | nil => cases h
  | cons b bs =>
    rw [follow] at h
    split_ifs at h with range
    · have byte : b.toNat % 64 + 0x80 = b.toNat := by omega
      refine ⟨b.toNat % 64, bs, Nat.mod_lt _ (by decide), by omega, by omega, ?_, h⟩
      rw [byte, UInt8.ofNat_toNat]
    · cases h

theorem lead?_one {k : Nat} (h : k < 0x80) : lead? k = some ⟨0, 0x80, 0xBF, k⟩ := if_pos h

theorem lead?_two {k : Nat} (least : 2 ≤ k) (h : k < 32) :
    lead? (k + 0xC0) = some ⟨1, 0x80, 0xBF, k⟩ := by
  rw [lead?, if_neg (by omega), if_neg (by omega), if_pos (by omega), Nat.add_sub_cancel]

theorem lead?_three {k : Nat} (h : k < 16) : lead? (k + 0xE0) =
    some ⟨2, if k = 0 then 0xA0 else 0x80, if k = 13 then 0x9F else 0xBF, k⟩ := by
  rw [lead?, if_neg (by omega), if_neg (by omega), if_neg (by omega), if_pos (by omega),
    Nat.add_sub_cancel]
  simp

theorem lead?_four {k : Nat} (h : k < 5) : lead? (k + 0xF0) =
    some ⟨3, if k = 0 then 0x90 else 0x80, if k = 4 then 0x8F else 0xBF, k⟩ := by
  rw [lead?, if_neg (by omega), if_neg (by omega), if_neg (by omega), if_neg (by omega),
    if_pos (by omega), Nat.add_sub_cancel]
  simp

theorem lead?_cases {b : Nat} {l : Lead} (h : lead? b = some l) :
    b < 0x80 ∨ (∃ k, 2 ≤ k ∧ k < 32 ∧ b = k + 0xC0) ∨ (∃ k < 16, b = k + 0xE0) ∨
      ∃ k < 5, b = k + 0xF0 := by
  obtain small | ⟨h₁, h₂⟩ | two | three | four | large : b < 0x80 ∨ (0x80 ≤ b ∧ b < 0xC2) ∨
      (0xC2 ≤ b ∧ b < 0xE0) ∨ (0xE0 ≤ b ∧ b < 0xF0) ∨ (0xF0 ≤ b ∧ b < 0xF5) ∨ 0xF5 ≤ b := by omega
  · exact .inl small
  · rw [lead?, if_neg (by omega), if_pos h₂] at h
    cases h
  · exact .inr (.inl ⟨b - 0xC0, by omega⟩)
  · exact .inr (.inr (.inl ⟨b - 0xE0, by omega⟩))
  · exact .inr (.inr (.inr ⟨b - 0xF0, by omega⟩))
  · rw [lead?, if_neg (by omega), if_neg (by omega), if_neg (by omega), if_neg (by omega),
      if_neg (by omega)] at h
    cases h

theorem Spells.next_eq {n : Nat} {b : UInt8} {bs : List UInt8} (h : Spells n (b :: bs))
    (rest : List UInt8) : next b (bs ++ rest) = (some n, rest) := by
  unfold next
  cases h with
  | one small =>
    rw [toNat_ofNat_of_lt (by omega), lead?_one small]
    rfl
  | two least hk ht =>
    rw [toNat_ofNat_of_lt (by omega), lead?_two least hk]
    exact follow_cons ht (Nat.le_add_left ..) (Nat.add_le_add_right (Nat.le_of_lt_succ ht) _)
  | @three k t u hk ht hu least surrogate =>
    have low : (if k = 0 then 0xA0 else 0x80) ≤ t + 0x80 := by split_ifs <;> omega
    have high : t + 0x80 ≤ if k = 13 then 0x9F else 0xBF := by split_ifs <;> omega
    rw [toNat_ofNat_of_lt (by omega), lead?_three hk]
    exact (follow_cons ht low high).trans (follow_cons hu (Nat.le_add_left ..) (by omega))
  | @four k t u v hk ht hu hv least greatest =>
    have low : (if k = 0 then 0x90 else 0x80) ≤ t + 0x80 := by split_ifs <;> omega
    have high : t + 0x80 ≤ if k = 4 then 0x8F else 0xBF := by split_ifs <;> omega
    rw [toNat_ofNat_of_lt (by omega), lead?_four hk]
    exact (follow_cons ht low high).trans <|
      (follow_cons hu (Nat.le_add_left ..) (by omega)).trans
        (follow_cons hv (Nat.le_add_left ..) (by omega))

theorem spells_of_next {n : Nat} {b : UInt8} {bs rest : List UInt8}
    (h : next b bs = (some n, rest)) : ∃ tail, bs = tail ++ rest ∧ Spells n (b :: tail) := by
  have byte : .ofNat b.toNat = b := UInt8.ofNat_toNat
  unfold next at h
  cases lead : lead? b.toNat with
  | none =>
    rw [lead] at h
    cases h
  | some l =>
    -- One case for each length; the range of the second byte is that of its first digit.
    obtain small | ⟨k, least, hk, first⟩ | ⟨k, hk, first⟩ | ⟨k, hk, first⟩ := lead?_cases lead
    · rw [lead?_one small] at h
      cases h
      refine ⟨[], rfl, ?_⟩
      conv => enter [2, 1]; rw [← byte]
      exact .one small
    · rw [first, lead?_two least hk] at h
      dsimp only at h
      obtain ⟨t, bs, ht, -, -, rfl, read⟩ := follow_eq_some (Nat.le_refl _) (Nat.le_refl _) h
      cases read
      refine ⟨[_], rfl, ?_⟩
      rw [← byte, first]
      exact .two least hk ht
    · rw [first, lead?_three hk] at h
      dsimp only at h
      have lower : 0x80 ≤ if k = 0 then 0xA0 else 0x80 := by split_ifs <;> omega
      have upper : (if k = 13 then 0x9F else 0xBF) ≤ 0xBF := by split_ifs <;> omega
      obtain ⟨t, bs, ht, low, high, rfl, read⟩ := follow_eq_some lower upper h
      obtain ⟨u, bs, hu, -, -, rfl, read'⟩ := follow_eq_some (Nat.le_refl _) (Nat.le_refl _) read
      cases read'
      refine ⟨[_, _], rfl, ?_⟩
      rw [← byte, first]
      exact .three hk ht hu (by split_ifs at low <;> omega) (by split_ifs at high <;> omega)
    · rw [first, lead?_four hk] at h
      dsimp only at h
      have lower : 0x80 ≤ if k = 0 then 0x90 else 0x80 := by split_ifs <;> omega
      have upper : (if k = 4 then 0x8F else 0xBF) ≤ 0xBF := by split_ifs <;> omega
      obtain ⟨t, bs, ht, low, high, rfl, read⟩ := follow_eq_some lower upper h
      obtain ⟨u, bs, hu, -, -, rfl, read'⟩ := follow_eq_some (Nat.le_refl _) (Nat.le_refl _) read
      obtain ⟨v, bs, hv, -, -, rfl, read''⟩ := follow_eq_some (Nat.le_refl _) (Nat.le_refl _) read'
      cases read''
      refine ⟨[_, _, _], rfl, ?_⟩
      rw [← byte, first]
      exact .four hk ht hu hv (by split_ifs at low <;> omega) (by split_ifs at high <;> omega)

/-! ## Texts -/

theorem parts_encode (cs : List Char) : parts (encode cs) = cs.map some := by
  induction cs with
  | nil =>
    rw [encode, List.flatMap_nil, parts]
    rfl
  | cons c cs ih =>
    have spells := utf8EncodeChar_spells c
    unfold encode at ih ⊢
    rw [List.flatMap_cons]
    cases bytes : String.utf8EncodeChar c with
    | nil => exact absurd bytes String.utf8EncodeChar_ne_nil
    | cons b bs =>
      rw [bytes] at spells
      rw [List.cons_append, parts, spells.next_eq, ih, Option.map_some, Char.ofNat_toNat]
      rfl

theorem eq_encode_of_parts {bs : List UInt8} {cs : List Char} (h : parts bs = cs.map some) :
    bs = encode cs := by
  fun_induction parts bs generalizing cs with
  | case1 =>
    cases cs with
    | nil => rfl
    | cons c cs => cases h
  | case2 b bs ih =>
    cases cs with
    | nil => cases h
    | cons c cs =>
      rw [List.map_cons, List.cons.injEq, Option.map_eq_some_iff] at h
      obtain ⟨⟨n, found, rfl⟩, rest⟩ := h
      obtain ⟨tail, split, spells⟩ := spells_of_next (Prod.ext found rfl)
      have later := ih rest
      unfold encode at later ⊢
      rw [List.flatMap_cons, spells.utf8EncodeChar_eq, ← later, List.cons_append, ← split]

theorem mapM_id_eq_some_iff {α : Type} {xs : List (Option α)} {ys : List α} :
    xs.mapM id = some ys ↔ xs = ys.map some := by
  induction xs generalizing ys with
  | nil => cases ys <;> simp
  | cons x xs ih =>
    cases x with
    | none => cases ys <;> simp
    | some x =>
      have split : (some x :: xs).mapM id = (xs.mapM id).bind fun rest => some (x :: rest) :=
        List.mapM_cons
      rw [split, Option.bind_eq_some_iff]
      cases ys with
      | nil => simp
      | cons y ys => simpa [ih] using and_comm

/-- Bytes are the UTF-8 of a text exactly if they are the bytes in which the text is held. -/
theorem decode?_eq_some_iff {bs : List UInt8} {t : String} :
    decode? bs = some t ↔ bs = t.toByteArray.data.toList := by
  have bytes : t.toByteArray.data.toList = encode t.toList := by
    rw [← String.utf8Encode_toList, List.utf8Encode, List.toList_data_toByteArray]
    rfl
  rw [bytes, decode?, Option.map_eq_some_iff]
  constructor
  · rintro ⟨cs, read, rfl⟩
    rw [String.toList_ofList]
    exact eq_encode_of_parts (mapM_id_eq_some_iff.1 read)
  · rintro rfl
    exact ⟨t.toList, mapM_id_eq_some_iff.2 (parts_encode _), String.ofList_toList⟩

theorem decodeLossy_encode (cs : List Char) : decodeLossy (encode cs) = String.ofList cs := by
  unfold decodeLossy
  rw [parts_encode, List.map_map]
  simp

end MarketFeed.Utf8
