import MarketFeed.Binary64.Shortest

/-!
# JSON values

A number is a whole number or a double. The members of an object are kept in the order of their
names, each name once, so that two objects with the same members are the same value.
-/

namespace MarketFeed

inductive Json.Number where
  | integer (value : Int)
  | real (value : Binary64)
  deriving DecidableEq, Repr, Inhabited

inductive Json where
  | null
  | bool (value : Bool)
  | number (value : Json.Number)
  | string (value : String)
  | array (items : List Json)
  | object (members : List (String × Json))
  deriving Repr, Inhabited

namespace Json

/-! ## Numbers -/

def integerText (i : Int) : String :=
  if i < 0 then "-" ++ Nat.repr i.natAbs else Nat.repr i.natAbs

namespace Number

def toBinary64 : Number → Binary64
  | integer i => .ofInt i
  | real x => x

/-- The text of a number; a double that is not finite is written as `null`. -/
def render : Number → String
  | integer i => integerText i
  | real x => x.render?.getD "null"

/-- Integers are equal as integers and doubles as doubles; an integer never equals a double. -/
def same : Number → Number → Bool
  | integer i, integer j => i == j
  | real x, real y => x.eq y
  | _, _ => false

end Number

/-! ## Members -/

/-- Sets a member, in place of the one of that name if there is one. -/
def insertMember (key : String) (value : Json) : List (String × Json) → List (String × Json)
  | [] => [(key, value)]
  | (k, v) :: rest =>
    if key = k then (key, value) :: rest
    else if key < k then (key, value) :: (k, v) :: rest
    else (k, v) :: insertMember key value rest

/-- An object with the given members; of several with one name the last counts. -/
def ofMembers (members : List (String × Json)) : Json :=
  object (members.foldl (fun ms m => insertMember m.1 m.2 ms) [])

def get? (j : Json) (key : String) : Option Json :=
  match j with
  | object members => (members.find? (·.1 == key)).map (·.2)
  | _ => none

def string? : Json → Option String
  | string s => some s
  | _ => none

/-! ## Equality -/

mutual

def same : Json → Json → Bool
  | null, null => true
  | bool a, bool b => a == b
  | number m, number n => m.same n
  | string s, string t => s == t
  | array xs, array ys => sameItems xs ys
  | object ms, object ns => sameMembers ms ns
  | _, _ => false

def sameItems : List Json → List Json → Bool
  | [], [] => true
  | x :: xs, y :: ys => same x y && sameItems xs ys
  | _, _ => false

def sameMembers : List (String × Json) → List (String × Json) → Bool
  | [], [] => true
  | (k, v) :: ms, (l, w) :: ns => k == l && same v w && sameMembers ms ns
  | _, _ => false

end

theorem Number.same_symm {m n : Number} (h : m.same n = true) : n.same m = true := by
  cases m with
  | integer i => cases n <;> simp_all [same]
  | real x =>
    cases n with
    | integer j => simp [same] at h
    | real y => exact Binary64.eq_symm h

theorem Number.same_trans {l m n : Number} (hlm : l.same m = true) (hmn : m.same n = true) :
    l.same n = true := by
  cases l with
  | integer i => cases m <;> cases n <;> simp_all [same]
  | real x =>
    cases m with
    | integer j => simp [same] at hlm
    | real y =>
      cases n with
      | integer k => simp [same] at hmn
      | real z => exact Binary64.eq_trans hlm hmn

mutual

theorem same_symm : ∀ {a b : Json}, a.same b = true → b.same a = true
  | .null, b, h => by cases b <;> simp_all [same]
  | .bool _, b, h => by cases b <;> simp_all [same]
  | .number m, b, h => by
    cases b with
    | number n =>
      simp only [same] at h ⊢
      exact Number.same_symm h
    | _ => simp [same] at h
  | .string _, b, h => by cases b <;> simp_all [same]
  | .array xs, b, h => by
    cases b with
    | array ys =>
      simp only [same] at h ⊢
      exact sameItems_symm h
    | _ => simp [same] at h
  | .object ms, b, h => by
    cases b with
    | object ns =>
      simp only [same] at h ⊢
      exact sameMembers_symm h
    | _ => simp [same] at h

theorem sameItems_symm : ∀ {xs ys : List Json}, sameItems xs ys = true → sameItems ys xs = true
  | [], ys, h => by cases ys <;> simp_all [sameItems]
  | x :: xs, ys, h => by
    cases ys with
    | nil => simp [sameItems] at h
    | cons y ys =>
      simp only [sameItems, Bool.and_eq_true] at h ⊢
      exact ⟨same_symm h.1, sameItems_symm h.2⟩

theorem sameMembers_symm : ∀ {ms ns : List (String × Json)},
    sameMembers ms ns = true → sameMembers ns ms = true
  | [], ns, h => by cases ns <;> simp_all [sameMembers]
  | (k, v) :: ms, ns, h => by
    cases ns with
    | nil => simp [sameMembers] at h
    | cons n ns =>
      obtain ⟨l, w⟩ := n
      simp only [sameMembers, Bool.and_eq_true, beq_iff_eq] at h ⊢
      exact ⟨⟨h.1.1.symm, same_symm h.1.2⟩, sameMembers_symm h.2⟩

end

mutual

theorem same_trans : ∀ {a b c : Json}, a.same b = true → b.same c = true → a.same c = true
  | .null, b, c, hab, hbc => by cases b <;> cases c <;> simp_all [same]
  | .bool _, b, c, hab, hbc => by cases b <;> cases c <;> simp_all [same]
  | .number l, b, c, hab, hbc => by
    cases b with
    | number m =>
      cases c with
      | number n =>
        simp only [same] at hab hbc ⊢
        exact Number.same_trans hab hbc
      | _ => simp [same] at hbc
    | _ => simp [same] at hab
  | .string _, b, c, hab, hbc => by cases b <;> cases c <;> simp_all [same]
  | .array xs, b, c, hab, hbc => by
    cases b with
    | array ys =>
      cases c with
      | array zs =>
        simp only [same] at hab hbc ⊢
        exact sameItems_trans hab hbc
      | _ => simp [same] at hbc
    | _ => simp [same] at hab
  | .object ls, b, c, hab, hbc => by
    cases b with
    | object ms =>
      cases c with
      | object ns =>
        simp only [same] at hab hbc ⊢
        exact sameMembers_trans hab hbc
      | _ => simp [same] at hbc
    | _ => simp [same] at hab

theorem sameItems_trans : ∀ {xs ys zs : List Json}, sameItems xs ys = true →
    sameItems ys zs = true → sameItems xs zs = true
  | [], ys, zs, hxy, hyz => by cases ys <;> simp_all [sameItems]
  | x :: xs, [], zs, hxy, hyz => by simp [sameItems] at hxy
  | x :: xs, y :: ys, [], hxy, hyz => by simp [sameItems] at hyz
  | x :: xs, y :: ys, z :: zs, hxy, hyz => by
    simp only [sameItems, Bool.and_eq_true] at hxy hyz ⊢
    exact ⟨same_trans hxy.1 hyz.1, sameItems_trans hxy.2 hyz.2⟩

theorem sameMembers_trans : ∀ {ls ms ns : List (String × Json)}, sameMembers ls ms = true →
    sameMembers ms ns = true → sameMembers ls ns = true
  | [], ms, ns, hlm, hmn => by cases ms <;> simp_all [sameMembers]
  | (k, u) :: ls, [], ns, hlm, hmn => by simp [sameMembers] at hlm
  | (k, u) :: ls, (l, v) :: ms, [], hlm, hmn => by simp [sameMembers] at hmn
  | (k, u) :: ls, (l, v) :: ms, (m, w) :: ns, hlm, hmn => by
    simp only [sameMembers, Bool.and_eq_true, beq_iff_eq] at hlm hmn ⊢
    exact ⟨⟨hlm.1.1.trans hmn.1.1, same_trans hlm.1.2 hmn.1.2⟩, sameMembers_trans hlm.2 hmn.2⟩

end

theorem same_congr {a b : Json} (h : a.same b = true) (c : Json) : a.same c = b.same c := by
  rw [Bool.eq_iff_iff]
  exact ⟨same_trans (same_symm h), same_trans h⟩

end Json

end MarketFeed
