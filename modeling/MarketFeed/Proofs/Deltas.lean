import Mathlib
import MarketFeed.Proofs.Framing
import MarketFeed.Proofs.Items
import MarketFeed.Proofs.Upstream

/-!
# Symbols that are added and removed

What is listed when symbols are added or removed: every symbol that the registry gained or lost,
once and in the order given. So each of the two is undone by the other with what was listed, and
neither has anything to do at once again.
-/

namespace MarketFeed

/-! ## Sets -/

namespace TextSet

theorem addAll_fst (xs : List String) (s : TextSet) :
    (addAll xs s).1 = (xs.filter fun x => x ≠ "" ∧ x ∉ s).eraseDups := by
  induction xs generalizing s with
  | nil => rfl
  | cons x xs ih =>
    unfold addAll
    by_cases h : x ≠ "" ∧ x ∉ s
    · have rest : (xs.filter fun y => y ≠ "" ∧ y ∉ s.insert x) =
          (xs.filter fun y => y ≠ "" ∧ y ∉ s).filter fun y => !y == x := by
        rw [List.filter_filter]
        refine List.filter_congr fun y _ => Bool.eq_iff_iff.2 ?_
        simp [mem_insert, and_left_comm]
      rw [if_pos h, List.filter_cons_of_pos (by simpa using h), List.eraseDups_cons, ← rest, ← ih]
    · rw [if_neg h, List.filter_cons_of_neg (by simpa using h), ih]

theorem removeAll_fst (xs : List String) (s : TextSet) :
    (removeAll xs s).1 = (xs.filter fun x => x ∈ s).eraseDups := by
  induction xs generalizing s with
  | nil => rfl
  | cons x xs ih =>
    unfold removeAll
    by_cases h : x ∈ s
    · have rest : (xs.filter fun y => y ∈ s.erase x) =
          (xs.filter fun y => y ∈ s).filter fun y => !y == x := by
        rw [List.filter_filter]
        refine List.filter_congr fun y _ => Bool.eq_iff_iff.2 ?_
        simp [mem_erase, and_comm]
      rw [if_pos h, List.filter_cons_of_pos (by simpa using h), List.eraseDups_cons, ← rest, ← ih]
    · rw [if_neg h, List.filter_cons_of_neg (by simpa using h), ih]

theorem nodup_added (xs : List String) (s : TextSet) : (addAll xs s).1.Nodup := by
  induction xs generalizing s with
  | nil => exact List.nodup_nil
  | cons x xs ih =>
    unfold addAll
    by_cases h : x ≠ "" ∧ x ∉ s
    · rw [if_pos h]
      refine List.nodup_cons.2 ⟨fun again => ?_, ih _⟩
      exact (mem_added.1 again).2 (mem_insert.2 (.inl rfl))
    · rw [if_neg h]
      exact ih s

theorem nodup_removed (xs : List String) (s : TextSet) : (removeAll xs s).1.Nodup := by
  induction xs generalizing s with
  | nil => exact List.nodup_nil
  | cons x xs ih =>
    unfold removeAll
    by_cases h : x ∈ s
    · rw [if_pos h]
      refine List.nodup_cons.2 ⟨fun again => ?_, ih _⟩
      exact (mem_erase.1 (mem_removed.1 again).1).2 rfl
    · rw [if_neg h]
      exact ih s

theorem eraseDups_of_nodup {xs : List String} (h : xs.Nodup) : xs.eraseDups = xs := by
  induction xs with
  | nil => rfl
  | cons x xs ih =>
    obtain ⟨fresh, rest⟩ := List.nodup_cons.1 h
    have others : (xs.filter fun y => !y == x) = xs := by
      refine List.filter_eq_self.2 fun y hy => ?_
      simpa using ne_of_mem_of_not_mem hy fresh
    rw [List.eraseDups_cons, others, ih rest]

theorem addAll_of_new {xs : List String} {s : TextSet} (nodup : xs.Nodup)
    (h : ∀ x ∈ xs, x ≠ "" ∧ x ∉ s) : (addAll xs s).1 = xs := by
  have all : (xs.filter fun x => x ≠ "" ∧ x ∉ s) = xs :=
    List.filter_eq_self.2 fun x hx => by simpa using h x hx
  rw [addAll_fst, all, eraseDups_of_nodup nodup]

theorem removeAll_of_mem {xs : List String} {s : TextSet} (nodup : xs.Nodup)
    (h : ∀ x ∈ xs, x ∈ s) : (removeAll xs s).1 = xs := by
  have all : (xs.filter fun x => x ∈ s) = xs :=
    List.filter_eq_self.2 fun x hx => by simpa using h x hx
  rw [removeAll_fst, all, eraseDups_of_nodup nodup]

variable (xs : List String) (s : TextSet)

theorem removeAll_addAll : removeAll (addAll xs s).1 (addAll xs s).2 = ((addAll xs s).1, s) := by
  refine Prod.ext (removeAll_of_mem (nodup_added xs s) fun x hx => (mem_added.1 hx).1) ?_
  refine eq_of_mem_iff fun z => ?_
  rw [mem_removeAll, mem_added, mem_addAll]
  tauto

theorem addAll_removeAll (named : "" ∉ s) :
    addAll (removeAll xs s).1 (removeAll xs s).2 = ((removeAll xs s).1, s) := by
  have lost : ∀ x ∈ (removeAll xs s).1, x ≠ "" ∧ x ∉ (removeAll xs s).2 := fun x hx =>
    ⟨ne_of_mem_of_not_mem (mem_removed.1 hx).1 named, (mem_removed.1 hx).2⟩
  refine Prod.ext (addAll_of_new (nodup_removed xs s) lost) ?_
  refine eq_of_mem_iff fun z => ?_
  rw [mem_addAll, mem_removed, mem_removeAll]
  constructor
  · tauto
  · intro hz
    have nonempty := ne_of_mem_of_not_mem hz named
    tauto

theorem addAll_again : addAll xs (addAll xs s).2 = ([], (addAll xs s).2) := by
  refine Prod.ext ?_ (eq_of_mem_iff fun z => ?_)
  · have none : (xs.filter fun x => x ≠ "" ∧ x ∉ (addAll xs s).2) = [] := by
      refine List.filter_eq_nil_iff.2 fun x hx => ?_
      simp [mem_addAll, hx]
      tauto
    rw [addAll_fst, none]
    rfl
  · rw [mem_addAll, mem_addAll]
    tauto

theorem removeAll_again : removeAll xs (removeAll xs s).2 = ([], (removeAll xs s).2) := by
  refine Prod.ext ?_ (eq_of_mem_iff fun z => ?_)
  · have none : (xs.filter fun x => x ∈ (removeAll xs s).2) = [] := by
      refine List.filter_eq_nil_iff.2 fun x hx => ?_
      simp [mem_removeAll, hx]
    rw [removeAll_fst, none]
    rfl
  · rw [mem_removeAll, mem_removeAll]
    tauto

end TextSet

/-! ## Registries -/

namespace Registry

inductive Reached : Registry → Prop
  | new : Reached {}
  | added {r} (xs : List String) (h : Reached r) : Reached (r.addSymbols xs).2
  | removed {r} (xs : List String) (h : Reached r) : Reached (r.removeSymbols xs).2
  | activated {r} (kind : EventKind) (h : Reached r) : Reached (r.activate kind)
  | handled {r} (kind : EventKind) (handler : Option Handler) (h : Reached r) :
      Reached (r.setHandler kind handler)
  | symbolsFiltered {r} (xs : List String) (h : Reached r) : Reached { r with symbolFilter := xs }
  | exchangesFiltered {r} (xs : List String) (h : Reached r) :
      Reached { r with exchangeFilter := xs }
  | unfiltered {r} (h : Reached r) : Reached r.clearFilters

theorem Reached.named {r : Registry} (h : r.Reached) : r.Named := by
  induction h with
  | new => exact List.not_mem_nil
  | added xs _ ih => exact ih.addSymbols xs
  | removed xs _ ih => exact ih.removeSymbols xs
  | activated | handled | symbolsFiltered | exchangesFiltered | unfiltered => assumption

/-- Adding symbols lists the first of each that is not empty and new. The registry gains these, and
nothing else in it changes. -/
structure Adds (r : Registry) (xs added : List String) (r' : Registry) : Prop where
  listed : added = (xs.filter fun x => x ≠ "" ∧ x ∉ r.symbols).eraseDups
  gained : ∀ x, x ∈ r'.symbols ↔ x ∈ r.symbols ∨ x ∈ added
  only : r' = { r with symbols := r'.symbols }

structure Removes (r : Registry) (xs removed : List String) (r' : Registry) : Prop where
  listed : removed = (xs.filter fun x => x ∈ r.symbols).eraseDups
  lost : ∀ x, x ∈ r'.symbols ↔ x ∈ r.symbols ∧ x ∉ removed
  only : r' = { r with symbols := r'.symbols }

variable (r : Registry) (xs : List String)

theorem addSymbols_adds : Adds r xs (r.addSymbols xs).1 (r.addSymbols xs).2 := by
  refine ⟨TextSet.addAll_fst xs r.symbols, fun x => ?_, rfl⟩
  show x ∈ (TextSet.addAll xs r.symbols).2 ↔ _ ∨ x ∈ (TextSet.addAll xs r.symbols).1
  rw [TextSet.mem_added, TextSet.mem_addAll]
  tauto

theorem removeSymbols_removes : Removes r xs (r.removeSymbols xs).1 (r.removeSymbols xs).2 := by
  refine ⟨TextSet.removeAll_fst xs r.symbols, fun x => ?_, rfl⟩
  show x ∈ (TextSet.removeAll xs r.symbols).2 ↔ _ ∧ x ∉ (TextSet.removeAll xs r.symbols).1
  rw [TextSet.mem_removed, TextSet.mem_removeAll]
  tauto

theorem removeSymbols_of_removeAll {r : Registry} {xs removed : List String} {symbols : TextSet}
    (h : TextSet.removeAll xs r.symbols = (removed, symbols)) :
    r.removeSymbols xs = (removed, { r with symbols }) := by
  unfold removeSymbols
  rw [h]

theorem addSymbols_of_addAll {r : Registry} {xs added : List String} {symbols : TextSet}
    (h : TextSet.addAll xs r.symbols = (added, symbols)) :
    r.addSymbols xs = (added, { r with symbols }) := by
  unfold addSymbols
  rw [h]

/-- What is added and removed, by a registry or by a client that holds it, is exact. Each is undone
by the other with what was listed, and again at once there is nothing to do. -/
theorem symbols_exact_and_reversible {r : Registry} (reached : r.Reached) (xs : List String) :
    let (added, more) := r.addSymbols xs
    let (removed, fewer) := r.removeSymbols xs
    (Adds r xs added more ∧ more.removeSymbols added = (added, r) ∧
      more.addSymbols xs = ([], more)) ∧
    (Removes r xs removed fewer ∧ fewer.addSymbols removed = (removed, r) ∧
      fewer.removeSymbols xs = ([], fewer)) ∧
    ∀ (τ : Type) (w : World τ) (c : Client τ), c.dispatcher.registry = r →
      ((Client.addSymbols w xs c).1 = added ∧
        (Client.addSymbols w xs c).2.dispatcher.registry = more) ∧
      (Client.removeSymbols w xs c).1 = removed ∧
        (Client.removeSymbols w xs c).2.dispatcher.registry = fewer := by
  dsimp only
  refine ⟨⟨addSymbols_adds r xs, ?_, ?_⟩, ⟨removeSymbols_removes r xs, ?_, ?_⟩, ?_⟩
  · exact removeSymbols_of_removeAll (TextSet.removeAll_addAll xs r.symbols)
  · exact addSymbols_of_addAll (TextSet.addAll_again xs r.symbols)
  · exact addSymbols_of_addAll (TextSet.addAll_removeAll xs r.symbols reached.named)
  · exact removeSymbols_of_removeAll (TextSet.removeAll_again xs r.symbols)
  · rintro τ w c rfl
    exact ⟨⟨rfl, Client.addSymbols_registry w xs c⟩, rfl, Client.removeSymbols_registry w xs c⟩

theorem symbols_reversible_repeated :
    let r : Registry := (Registry.addSymbols {} ["SPY"]).2
    r.Reached ∧
      (r.addSymbols ["QQQ", "", "SPY", "QQQ"]).1 = ["QQQ"] ∧
      (r.addSymbols ["QQQ", "", "SPY", "QQQ"]).2.removeSymbols ["QQQ"] = (["QQQ"], r) := by
  intro r
  have reached : r.Reached := .added ["SPY"] .new
  obtain ⟨⟨adds, undone, -⟩, -⟩ := symbols_exact_and_reversible reached ["QQQ", "", "SPY", "QQQ"]
  have listed : (r.addSymbols ["QQQ", "", "SPY", "QQQ"]).1 = ["QQQ"] := by decide
  exact ⟨reached, listed, listed ▸ undone⟩

end Registry

end MarketFeed
