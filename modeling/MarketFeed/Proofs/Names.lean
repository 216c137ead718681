import Mathlib
import MarketFeed.TextSet
import MarketFeed.Proofs.Columns
import MarketFeed.Proofs.Contents

/-!
# Names in a message

Reading a text gives objects in which no name occurs twice, at any depth. In such a value a name leads
to a member exactly if the member is there, and there is only one of each name.
-/

namespace MarketFeed.Json

inductive Ordered : Json → Prop where
  | scalar {v : Json} (h : v.Scalar) : Ordered v
  | array {items : List Json} (h : ∀ v ∈ items, Ordered v) : Ordered (array items)
  | object {members : List (String × Json)} (names : (members.map Prod.fst).Pairwise (· < ·))
    (h : ∀ m ∈ members, Ordered m.2) : Ordered (object members)

theorem names_insertMember (key : String) (value : Json) (members : List (String × Json)) :
    (insertMember key value members).map Prod.fst =
      TextSet.insertSorted key (members.map Prod.fst) := by
  induction members with
  | nil => rfl
  | cons m members ih =>
    obtain ⟨k, v⟩ := m
    unfold insertMember
    rw [List.map_cons, TextSet.insertSorted]
    by_cases same : key = k
    · subst same
      rw [if_pos rfl, if_neg (String.lt_irrefl key), if_neg (String.lt_irrefl key), List.map_cons]
    · rw [if_neg same]
      by_cases less : key < k
      · rw [if_pos less, if_pos less, List.map_cons, List.map_cons]
      · have more : k < key := by
          by_contra none
          exact same (TextSet.eq_of_not_lt less none)
        rw [if_neg less, if_neg less, if_pos more, List.map_cons, ih]

theorem ordered_ofMembers {members : List (String × Json)} (h : ∀ m ∈ members, m.2.Ordered) :
    (ofMembers members).Ordered := by
  obtain ⟨set, eq, names, values⟩ := ofMembers_induction
    (R := fun set => (set.map Prod.fst).Pairwise (· < ·) ∧ ∀ m ∈ set, m.2.Ordered)
    ⟨.nil, by simp⟩ fun set hs m (hm : m ∈ members) => by
      refine ⟨?_, forall_insertMember (h m hm) hs.2⟩
      rw [names_insertMember]
      exact TextSet.sorted_insertSorted m.1 hs.1
  exact eq ▸ .object names values

theorem ordered_of_parse? {text : String} {v : Json} (h : parse? text = some v) : v.Ordered :=
  parse?_induction (fun _ => .scalar) (fun _ => .array) (fun _ => ordered_ofMembers) h

/-! ## Members by name -/

def HasMember (j : Json) (name : String) (v : Json) : Prop :=
  ∃ members, j = .object members ∧ (name, v) ∈ members

theorem mem_of_get? {members : List (String × Json)} {name : String} {v : Json}
    (h : (object members).get? name = some v) : (name, v) ∈ members := by
  obtain ⟨m, found, rfl⟩ := Option.map_eq_some_iff.1 h
  have named : m.1 = name := by simpa using List.find?_some found
  exact named ▸ List.mem_of_find?_eq_some found

theorem Ordered.hasMember_iff {j : Json} (h : j.Ordered) {name : String} {v : Json} :
    j.HasMember name v ↔ j.get? name = some v := by
  constructor
  · rintro ⟨members, rfl, mem⟩
    cases h with
    | scalar none => cases none
    | object names _ =>
      exact Event.get?_of_mem (names.imp fun less => ne_of_lt less) mem
  · intro found
    cases j with
    | object members => exact ⟨members, rfl, mem_of_get? found⟩
    | _ => cases found

end MarketFeed.Json
