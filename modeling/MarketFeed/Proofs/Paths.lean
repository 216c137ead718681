import Mathlib
import MarketFeed.Proofs.Authorities

/-!
# Paths that are read back

A path that was read is made of pieces that neither stay nor go up, and is read from its own text as
what it is.
-/

namespace MarketFeed

namespace Url

open Percent

/-- A piece of a path as it is written: it neither stays nor goes up. -/
structure SettledPiece (web : Bool) (cs : List Char) : Prop where
  kept : ∀ c ∈ cs, keptInPath c = true
  noSlash : '/' ∉ cs
  noBackslash : web = true → '\\' ∉ cs
  noDot : isDot cs = false
  noDoubleDot : isDoubleDot cs = false

def SettledPath (web : Bool) (cs : List Char) : Prop :=
  ∃ ps, ps ≠ [] ∧ (∀ p ∈ ps, SettledPiece web p) ∧ cs = ps.flatMap fun p => '/' :: p

theorem walk_settled {web : Bool} {ps : List (List Char)} (h : ∀ p ∈ ps, SettledPiece web p)
    (sofar : List (List Char)) : walk sofar ps = sofar.reverse ++ ps := by
  induction ps generalizing sofar with
  | nil => exact (List.append_nil _).symm
  | cons p ps ih =>
    obtain ⟨first, others⟩ := List.forall_mem_cons.1 h
    rw [walk]
    simp only [first.noDot, first.noDoubleDot, Bool.false_eq_true, if_false,
      encode_of_kept first.kept]
    rw [ih others, List.reverse_cons, List.append_assoc, List.singleton_append]

theorem pieces_flatMap {p : List Char} {ps : List (List Char)} (h : ∀ q ∈ p :: ps, '/' ∉ q) :
    pieces '/' (p ++ ps.flatMap fun q => '/' :: q) = p :: ps := by
  induction ps generalizing p with
  | nil => simpa using pieces_of_not_mem (h p List.mem_cons_self)
  | cons q ps ih =>
    obtain ⟨first, others⟩ := List.forall_mem_cons.1 h
    rw [List.flatMap_cons, List.cons_append, pieces_append_cons first, ih others]

theorem SettledPath.read {web : Bool} {cs : List Char} (h : SettledPath web cs) :
    ∃ rest, cs = '/' :: rest ∧ rootedPath rest = String.ofList cs := by
  obtain ⟨ps, filled, settled, rfl⟩ := h
  obtain ⟨p, ps, rfl⟩ := List.exists_cons_of_ne_nil filled
  refine ⟨p ++ ps.flatMap fun q => '/' :: q, rfl, ?_⟩
  unfold rootedPath
  rw [pieces_flatMap fun q hq => (settled q hq).noSlash, walk_settled settled]
  rfl

theorem SettledPath.kept {web : Bool} {cs : List Char} (h : SettledPath web cs) :
    ∀ c ∈ cs, keptInPath c = true ∧ (web = true → c ≠ '\\') := by
  obtain ⟨ps, -, settled, rfl⟩ := h
  intro c hc
  obtain ⟨p, hp, hc⟩ := List.mem_flatMap.1 hc
  obtain rfl | inner := List.mem_cons.1 hc
  · exact ⟨by decide, fun _ => by decide⟩
  · exact ⟨(settled p hp).kept c inner,
      fun w same => (settled p hp).noBackslash w (same ▸ inner)⟩

end Url

end MarketFeed
