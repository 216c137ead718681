import Mathlib
import MarketFeed.Text.Blank

/-!
# Trimmed texts

What trimming leaves has no white space at either end. A text of this kind is what remains of it
with white space around.
-/

namespace MarketFeed

structure Tight (text : List Char) : Prop where
  start : ∀ c ∈ text.head?, isBlank c = false
  stop : ∀ c ∈ text.getLast?, isBlank c = false

theorem Tight.of_solid {text : List Char} (h : ∀ c ∈ text, isBlank c = false) : Tight text where
  start c hc := h c (List.mem_of_mem_head? hc)
  stop c hc := h c (List.mem_of_getLast? hc)

/-! ## Trimming a text -/

theorem head_dropWhile_isBlank (cs : List Char) :
    ∀ c ∈ (cs.dropWhile isBlank).head?, isBlank c = false := by
  intro c hc
  have kept := List.head?_dropWhile_not isBlank cs
  rw [hc] at kept
  exact kept

theorem trim_begins (cs : List Char) : trim cs <+: cs.dropWhile isBlank :=
  List.rdropWhile_prefix isBlank _

theorem tight_trim (cs : List Char) : Tight (trim cs) where
  start := by
    intro c hc
    obtain ⟨rest, split⟩ := trim_begins cs
    have first : c ∈ (cs.dropWhile isBlank).head? := by
      rw [← split, List.head?_append, hc]
      rfl
    exact head_dropWhile_isBlank cs c first
  stop := by
    unfold trim
    rw [List.getLast?_reverse]
    exact head_dropWhile_isBlank _

theorem mem_of_mem_trim {c : Char} {cs : List Char} (h : c ∈ trim cs) : c ∈ cs :=
  (List.dropWhile_suffix isBlank).subset ((trim_begins cs).subset h)

/-! ## White space around a text -/

theorem dropWhile_isBlank {cs : List Char} (h : ∀ c ∈ cs.head?, isBlank c = false) :
    cs.dropWhile isBlank = cs := by
  cases cs with
  | nil => rfl
  | cons c cs => exact List.dropWhile_cons_of_neg (by simp [h c rfl])

theorem Tight.trim_eq {text : List Char} (tight : Tight text) : trim text = text := by
  unfold trim
  rw [dropWhile_isBlank tight.start, dropWhile_isBlank (by simpa using tight.stop),
    List.reverse_reverse]

theorem trim_padded {left text right : List Char} (hl : ∀ c ∈ left, isBlank c = true)
    (tight : Tight text) (hr : ∀ c ∈ right, isBlank c = true) (ne : text ≠ []) :
    trim (left ++ (text ++ right)) = text := by
  have front : (text ++ right).dropWhile isBlank = text ++ right := by
    apply dropWhile_isBlank
    rw [List.head?_append_of_ne_nil _ ne]
    exact tight.start
  have back : text.reverse.dropWhile isBlank = text.reverse := by
    apply dropWhile_isBlank
    rw [List.head?_reverse]
    exact tight.stop
  unfold trim
  rw [List.dropWhile_append_of_pos hl, front, List.reverse_append,
    List.dropWhile_append_of_pos (by simpa using hr), back, List.reverse_reverse]

end MarketFeed
