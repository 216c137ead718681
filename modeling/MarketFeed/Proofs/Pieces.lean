import Mathlib
import MarketFeed.Text.Pieces

/-!
# Pieces of a text

What a cut at every separator leaves: a text without the separator is one piece, texts joined with it
are cut apart again, and pieces are made of what the text has besides the separator.
-/

namespace MarketFeed

variable {separator : Char}

theorem pieces_ne_nil (separator : Char) (cs : List Char) : pieces separator cs ≠ [] := by
  cases cs with
  | nil => exact List.cons_ne_nil _ _
  | cons c cs =>
    rw [pieces]
    split_ifs
    · exact List.cons_ne_nil _ _
    · split <;> exact List.cons_ne_nil _ _

theorem pieces_append (separator : Char) (xs ys : List Char) :
    pieces separator (xs ++ separator :: ys) = pieces separator xs ++ pieces separator ys := by
  induction xs with
  | nil => exact if_pos rfl
  | cons x xs ih =>
    rw [List.cons_append, pieces, pieces, ih]
    by_cases h : x = separator
    · rw [if_pos h, if_pos h, List.cons_append]
    · rw [if_neg h, if_neg h]
      cases cut : pieces separator xs with
      | nil => exact absurd cut (pieces_ne_nil separator xs)
      | cons piece rest => rfl

/-! ## Pieces as they are -/

theorem pieces_of_not_mem {piece : List Char} (h : separator ∉ piece) :
    pieces separator piece = [piece] := by
  induction piece with
  | nil => rfl
  | cons c cs ih =>
    rw [List.mem_cons, not_or] at h
    rw [pieces, if_neg (Ne.symm h.1), ih h.2]

theorem pieces_append_cons {piece : List Char} (h : separator ∉ piece) (rest : List Char) :
    pieces separator (piece ++ separator :: rest) = piece :: pieces separator rest := by
  rw [pieces_append, pieces_of_not_mem h, List.singleton_append]

/-! ## What pieces are made of -/

theorem of_mem_pieces {d : Char} {cs piece : List Char} (h : piece ∈ pieces separator cs)
    (hd : d ∈ piece) : d ∈ cs ∧ d ≠ separator := by
  induction cs generalizing piece with
  | nil =>
    rw [pieces, List.mem_singleton] at h
    subst h
    cases hd
  | cons c cs ih =>
    suffices d = c ∧ c ≠ separator ∨ ∃ rest ∈ pieces separator cs, d ∈ rest by
      obtain ⟨rfl, other⟩ | ⟨rest, hr, hd⟩ := this
      · exact ⟨List.mem_cons_self, other⟩
      · exact ⟨List.mem_cons_of_mem _ (ih hr hd).1, (ih hr hd).2⟩
    rw [pieces] at h
    split_ifs at h with same
    · obtain rfl | later := List.mem_cons.1 h
      · cases hd
      · exact .inr ⟨piece, later, hd⟩
    · cases cut : pieces separator cs with
      | nil => exact absurd cut (pieces_ne_nil separator cs)
      | cons first rest =>
        rw [cut] at h
        obtain rfl | later := List.mem_cons.1 h
        · obtain rfl | inner := List.mem_cons.1 hd
          · exact .inl ⟨rfl, same⟩
          · exact .inr ⟨first, List.mem_cons_self, inner⟩
        · exact .inr ⟨piece, List.mem_cons_of_mem _ later, hd⟩

theorem not_mem_of_mem_pieces {cs piece : List Char} (h : piece ∈ pieces separator cs) :
    separator ∉ piece := fun hs => (of_mem_pieces h hs).2 rfl

end MarketFeed
