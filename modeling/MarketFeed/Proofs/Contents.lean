import Mathlib
import MarketFeed.Json.Parser

/-!
# Contents of a message

A value that is read from a text is made of scalars, arrays and objects, and of nothing else, so what
these pass on holds at any depth. Reading makes no numbers of its own, for one: each number in the
value is that of a literal, and what holds of the numbers of all literals holds of it.
-/

namespace MarketFeed.Json

def Number.Spelled (n : Number) : Prop := ∃ l : Literal, l.number? = some n

inductive Every (P : Number → Prop) : Json → Prop where
  | null : Every P null
  | bool (b : Bool) : Every P (bool b)
  | number {n : Number} : P n → Every P (number n)
  | string (s : String) : Every P (string s)
  | array {items : List Json} : (∀ v ∈ items, Every P v) → Every P (array items)
  | object {members : List (String × Json)} :
    (∀ m ∈ members, Every P m.2) → Every P (object members)

section
variable {P : Number → Prop}

theorem Every.get? {message v : Json} (h : message.Every P) {key : String}
    (hv : message.get? key = some v) : v.Every P := by
  unfold Json.get? at hv
  split at hv
  · obtain ⟨m, found, rfl⟩ := Option.map_eq_some_iff.1 hv
    cases h with
    | object members => exact members m (List.mem_of_find?_eq_some found)
  · cases hv

theorem forall_insertMember {Q : Json → Prop} {key : String} {value : Json} (hv : Q value)
    {members : List (String × Json)} (hm : ∀ m ∈ members, Q m.2) :
    ∀ m ∈ insertMember key value members, Q m.2 := by
  induction members with
  | nil => simpa [insertMember] using hv
  | cons m members ih =>
    obtain ⟨first, others⟩ := List.forall_mem_cons.1 hm
    unfold insertMember
    split_ifs
    · exact List.forall_mem_cons.2 ⟨hv, others⟩
    · exact List.forall_mem_cons.2 ⟨hv, hm⟩
    · exact List.forall_mem_cons.2 ⟨first, ih others⟩

/-- What holds of a list of members without any and is kept by setting a member holds of the members
of every object. -/
theorem ofMembers_induction {R : List (String × Json) → Prop} (empty : R [])
    {members : List (String × Json)}
    (insert : ∀ set, R set → ∀ m ∈ members, R (insertMember m.1 m.2 set)) :
    ∃ set, ofMembers members = object set ∧ R set := by
  refine ⟨_, rfl, ?_⟩
  suffices ∀ set, R set → R (members.foldl (fun ms m => insertMember m.1 m.2 ms) set) from
    this [] empty
  induction members with
  | nil => exact fun _ hs => hs
  | cons m members ih =>
    have others := ih fun set hs m' hm => insert set hs m' (List.mem_cons_of_mem _ hm)
    exact fun set hs => others _ (insert set hs m (List.mem_cons_self ..))

theorem ofMembers_every {members : List (String × Json)} (h : ∀ m ∈ members, m.2.Every P) :
    (ofMembers members).Every P := by
  obtain ⟨set, eq, every⟩ := ofMembers_induction (R := fun set => ∀ m ∈ set, m.2.Every P) (by simp)
    fun _ hs m hm => forall_insertMember (h m hm) hs
  exact eq ▸ .object every

end

/-! ## Reading -/

inductive Scalar : Json → Prop where
  | null : Scalar null
  | bool (b : Bool) : Scalar (bool b)
  | number {n : Number} (h : n.Spelled) : Scalar (number n)
  | string (s : String) : Scalar (string s)

namespace Reader

def Level.All (Q : Json → Prop) : Level → Prop
  | .array items => ∀ v ∈ items, Q v
  | .object members _ => ∀ m ∈ members, Q m.2

/-- Every value that was read so far, in containers that are still open, has the property. -/
def State.All (Q : Json → Prop) : State → Prop
  | .value levels | .firstItem levels | .firstKey levels => ∀ l ∈ levels, l.All Q
  | .key members levels | .colon members _ levels =>
    (∀ m ∈ members, Q m.2) ∧ ∀ l ∈ levels, l.All Q
  | .done v levels => Q v ∧ ∀ l ∈ levels, l.All Q

section
variable {Q : Json → Prop}

theorem startValue_all {levels : List Level} (h : ∀ l ∈ levels, l.All Q) {t : Token}
    (ht : ∀ v, t = .scalar v → Q v) {s : State} (hs : startValue levels t = some s) : s.All Q := by
  unfold startValue at hs
  split at hs
  · cases hs
    exact ⟨ht _ rfl, h⟩
  · split_ifs at hs
    cases hs
    exact h
  · split_ifs at hs
    cases hs
    exact h
  · cases hs

theorem State.All.parts {v : Json} {l : Level} {levels : List Level}
    (h : (State.done v (l :: levels)).All Q) : Q v ∧ l.All Q ∧ ∀ l ∈ levels, l.All Q := by
  simpa [State.All] using h

variable (array : ∀ items, (∀ v ∈ items, Q v) → Q (.array items))
variable (object : ∀ members, (∀ m ∈ members, Q m.2) → Q (ofMembers members))
include array object

theorem step_all {s s' : State} (h : s.All Q) {t : Token} (ht : ∀ v, t = .scalar v → Q v)
    (hs : step s t = some s') : s'.All Q := by
  unfold step at hs
  split at hs
  · exact startValue_all h ht hs
  · cases hs
    exact ⟨array [] (by simp), h⟩
  · exact startValue_all (List.forall_mem_cons.2 ⟨by simp [Level.All], h⟩) ht hs
  · cases hs
    exact ⟨object [] (by simp), h⟩
  · cases hs
    exact ⟨by simp, h⟩
  · cases hs
    exact h
  · cases hs
    exact List.forall_mem_cons.2 h
  · cases hs
    obtain ⟨last, items, outer⟩ := h.parts
    exact List.forall_mem_cons.2 ⟨List.forall_mem_cons.2 ⟨last, items⟩, outer⟩
  · cases hs
    obtain ⟨last, items, outer⟩ := h.parts
    refine ⟨array _ fun v hv => ?_, outer⟩
    exact List.forall_mem_cons.2 ⟨last, items⟩ v (List.mem_reverse.1 hv)
  · cases hs
    obtain ⟨last, items, outer⟩ := h.parts
    exact ⟨List.forall_mem_cons.2 ⟨last, items⟩, outer⟩
  · cases hs
    obtain ⟨last, items, outer⟩ := h.parts
    refine ⟨object _ fun m hm => ?_, outer⟩
    rcases List.mem_cons.1 (List.mem_reverse.1 hm) with rfl | earlier
    · exact last
    · exact items m earlier
  · cases hs

theorem run_all {ts : List Token} {s s' : State} (h : s.All Q)
    (ht : ∀ v, Token.scalar v ∈ ts → Q v) (hs : ts.foldlM step s = some s') : s'.All Q := by
  induction ts generalizing s with
  | nil =>
    cases hs
    exact h
  | cons t ts ih =>
    rw [List.foldlM_cons] at hs
    obtain ⟨s₁, first, rest⟩ := Option.bind_eq_some_iff.1 hs
    have next := step_all array object h (fun v hv => ht v (hv ▸ List.mem_cons_self ..)) first
    exact ih next (fun v hv => ht v (List.mem_cons_of_mem _ hv)) rest

end

end Reader

theorem Token.scalar_of_next? {cs rest : List Char} {v : Json}
    (h : next? cs = some (scalar v, rest)) : v.Scalar := by
  unfold next? at h
  split at h
  · cases h
    exact .null
  · cases h
    exact .bool _
  · cases h
    exact .bool _
  · unfold Token.string? at h
    split at h
    · cases h
      exact .string _
    · cases h
  · cases h
  · split at h
    · rename_i mark
      cases h
      unfold mark? at mark
      split at mark <;> cases mark
    · unfold number? at h
      split at h
      · split at h
        · rename_i number
          cases h
          exact .number ⟨_, number⟩
        · cases h
      · cases h

theorem scalar_of_tokens? {cs : List Char} {ts : List Token} (h : tokens? cs = some ts) {v : Json}
    (hv : Token.scalar v ∈ ts) : v.Scalar := by
  induction ts generalizing cs with
  | nil => cases hv
  | cons t ts ih =>
    rw [tokens?] at h
    split_ifs at h
    · cases h
    split at h
    · cases h
    · rename_i t' rest next
      obtain ⟨ts', others, split⟩ := Option.map_eq_some_iff.1 h
      cases split
      rcases List.mem_cons.1 hv with rfl | later
      · exact Token.scalar_of_next? next
      · exact ih others later

/-- What holds of the values without parts and passes from the items to the array and from the members
to the object holds of every value that is read from a text. -/
theorem parse?_induction {Q : Json → Prop} (scalar : ∀ v : Json, v.Scalar → Q v)
    (array : ∀ items, (∀ v ∈ items, Q v) → Q (.array items))
    (object : ∀ members, (∀ m ∈ members, Q m.2) → Q (ofMembers members)) {text : String} {v : Json}
    (h : parse? text = some v) : Q v := by
  unfold parse? at h
  obtain ⟨ts, tokens, value⟩ := Option.bind_eq_some_iff.1 h
  unfold ofTokens? at value
  obtain ⟨s, run, result⟩ := Option.bind_eq_some_iff.1 value
  have start : (Reader.State.value []).All Q := by simp [Reader.State.All]
  have read := Reader.run_all array object start
    (fun v hv => scalar v (scalar_of_tokens? tokens hv)) run
  unfold Reader.result? at result
  split at result
  · cases result
    exact read.1
  · cases result

theorem Scalar.every {v : Json} (h : v.Scalar) : v.Every Number.Spelled := by
  cases h with
  | null => exact .null
  | bool b => exact .bool b
  | number spelled => exact .number spelled
  | string s => exact .string s

theorem spelled_of_parse? {text : String} {v : Json} (h : parse? text = some v) :
    v.Every Number.Spelled :=
  parse?_induction (fun _ => Scalar.every) (fun _ => .array) (fun _ => ofMembers_every) h

end MarketFeed.Json
