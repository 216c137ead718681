/-!
# Sets of texts

A finite set of texts, listed in the order of their code points, which is also the order of their
bytes in UTF-8.
-/

namespace MarketFeed

structure TextSet where
  toList : List String
  sorted : toList.Pairwise (· < ·)
  deriving DecidableEq

namespace TextSet

def empty : TextSet := ⟨[], .nil⟩

instance : Inhabited TextSet := ⟨empty⟩

instance : Membership String TextSet := ⟨fun s x => x ∈ s.toList⟩

instance (x : String) (s : TextSet) : Decidable (x ∈ s) :=
  inferInstanceAs (Decidable (x ∈ s.toList))

def isEmpty (s : TextSet) : Bool := s.toList.isEmpty

def size (s : TextSet) : Nat := s.toList.length

/-! ## Insertion and removal -/

def insertSorted (x : String) : List String → List String
  | [] => [x]
  | y :: ys => if x < y then x :: y :: ys else if y < x then y :: insertSorted x ys else y :: ys

theorem eq_of_not_lt {x y : String} (h₁ : ¬ x < y) (h₂ : ¬ y < x) : x = y :=
  String.le_antisymm (String.not_lt.1 h₂) (String.not_lt.1 h₁)

theorem mem_insertSorted {x z : String} {ys : List String} :
    z ∈ insertSorted x ys ↔ z = x ∨ z ∈ ys := by
  induction ys with
  | nil => simp [insertSorted]
  | cons y ys ih =>
    unfold insertSorted
    split
    · simp
    · split
      · simp only [List.mem_cons, ih]
        exact or_left_comm
      · rename_i h₁ h₂
        rw [eq_of_not_lt h₁ h₂]
        simp

theorem sorted_insertSorted (x : String) {ys : List String} (h : ys.Pairwise (· < ·)) :
    (insertSorted x ys).Pairwise (· < ·) := by
  induction ys with
  | nil => simp [insertSorted]
  | cons y ys ih =>
    obtain ⟨hy, hys⟩ := List.pairwise_cons.1 h
    unfold insertSorted
    split
    · rename_i hxy
      refine List.pairwise_cons.2 ⟨fun z hz => ?_, h⟩
      rcases List.mem_cons.1 hz with rfl | hz
      · exact hxy
      · exact String.lt_trans hxy (hy z hz)
    · split
      · rename_i _ hyx
        refine List.pairwise_cons.2 ⟨fun z hz => ?_, ih hys⟩
        rcases mem_insertSorted.1 hz with rfl | hz
        · exact hyx
        · exact hy z hz
      · exact h

def insert (s : TextSet) (x : String) : TextSet :=
  ⟨insertSorted x s.toList, sorted_insertSorted x s.sorted⟩

def erase (s : TextSet) (x : String) : TextSet :=
  ⟨s.toList.filter (· ≠ x), s.sorted.filter _⟩

def ofList (xs : List String) : TextSet := xs.foldl insert empty

theorem mem_insert {s : TextSet} {x z : String} : z ∈ s.insert x ↔ z = x ∨ z ∈ s :=
  mem_insertSorted

theorem mem_erase {s : TextSet} {x z : String} : z ∈ s.erase x ↔ z ∈ s ∧ z ≠ x := by
  show z ∈ s.toList.filter _ ↔ z ∈ s.toList ∧ _
  simp [List.mem_filter]

end TextSet

end MarketFeed
