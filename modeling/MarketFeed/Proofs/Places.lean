import Mathlib
import MarketFeed.Proofs.Paths

/-!
# Places that are read back

What stands between the scheme and the query of an address: an authority and a path, or a path
alone.
-/

namespace MarketFeed.Url

open Percent

/-! ## Places -/

/-- An authority and a path as they are written. Without a host the path need not begin at a
root. -/
inductive SettledPlace (scheme : String) : Option Authority → List Char → Prop
  | web {a : Authority} {path : List Char} (h : isWeb scheme = true)
      (place : SettledAuthority scheme a) (way : SettledPath true path) :
      SettledPlace scheme (some a) path
  | host {a : Authority} {path : List Char} (h : isWeb scheme = false)
      (place : SettledAuthority scheme a) (way : path = [] ∨ SettledPath false path) :
      SettledPlace scheme (some a) path
  | rooted {path : List Char} (h : isWeb scheme = false) (way : SettledPath false path) :
      SettledPlace scheme none path
  | loose {path : List Char} (h : isWeb scheme = false)
      (kept : ∀ c ∈ path, (isVisible c || c = ' ') = true) (ends : '#' ∉ path ∧ '?' ∉ path)
      (noRoot : path.head? ≠ some '/') : SettledPlace scheme none path

def EndsNothing (c : Char) : Prop := isVisible c = true ∧ c ∉ ['#', '/', '?', '\\']

theorem endsNothing_of_inHost {c : Char} (h : isInHost c = true) : EndsNothing c := by
  simp only [isInHost, Bool.and_eq_true, Bool.not_eq_true', List.contains_eq_mem,
    decide_eq_false_iff_not] at h
  refine ⟨h.1, mt (fun hc => ?_) h.2⟩
  simp only [List.mem_cons] at hc ⊢
  tauto

theorem endsNothing_of_userInfo {c : Char} (h : keptInUserInfo c = true) : EndsNothing c := by
  simp [keptInUserInfo, keptInPath, keptInQuery] at h
  simp [EndsNothing, h]

theorem SettledUser.endsNothing {cs : List Char} (h : SettledUser cs) :
    ∀ c ∈ cs, EndsNothing c := by
  cases h with
  | name h => exact fun c hc => endsNothing_of_userInfo (h c hc)
  | password h filled h' =>
    intro c hc
    obtain hc | hc := List.mem_append.1 hc
    · exact endsNothing_of_userInfo (h c hc)
    · obtain rfl | hc := List.mem_cons.1 hc
      · exact ⟨by decide, by decide⟩
      · exact endsNothing_of_userInfo (h' c hc)

theorem SettledAuthority.endsNothing {scheme : String} {a : Authority}
    (h : SettledAuthority scheme a) : ∀ c ∈ (renderAuthority a).toList, EndsNothing c := by
  intro c hc
  rw [renderAuthority_toList, List.mem_append, List.mem_append] at hc
  obtain hc | hc | hc := hc
  · split_ifs at hc with nobody
    · cases hc
    · obtain hc | hc := List.mem_append.1 hc
      · exact h.user.endsNothing c hc
      · rw [List.mem_singleton.1 hc]
        exact ⟨by decide, by decide⟩
  · exact endsNothing_of_inHost (h.host.inHost c hc)
  · exact endsNothing_of_inHost (portText_inHost c hc)

theorem SettledAuthority.noSlash {scheme : String} {a : Authority}
    (h : SettledAuthority scheme a) : '/' ∉ (renderAuthority a).toList := fun hc =>
  (h.endsNothing '/' hc).2 (by decide)

theorem SettledHost.ne_nil {scheme : String} {cs : List Char} (h : SettledHost scheme cs)
    (web : isWeb scheme = true) : cs ≠ [] := by
  cases h with
  | address => exact List.cons_ne_nil _ _
  | name _ filled => exact filled
  | other notWeb => cases web.symm.trans notWeb

theorem SettledAuthority.ne_nil {scheme : String} {a : Authority}
    (h : SettledAuthority scheme a) (web : isWeb scheme = true) :
    (renderAuthority a).toList ≠ [] := by
  have named := h.host.ne_nil web
  rw [renderAuthority_toList]
  simp [named]

theorem place?_web {scheme : String} {a : Authority} {path : String} (web : isWeb scheme = true)
    (place : SettledAuthority scheme a) (way : SettledPath true path.toList) :
    place? scheme ('/' :: '/' :: ((renderAuthority a).toList ++ path.toList)) =
      some (some a, path) := by
  have noBackslash : ∀ c ∈ '/' :: '/' :: ((renderAuthority a).toList ++ path.toList),
      (if c = '\\' then '/' else c) = c := by
    intro c hc
    apply if_neg
    rintro rfl
    simp only [List.mem_cons, List.mem_append] at hc
    rcases hc with hc | hc | hc | hc
    · exact absurd hc (by decide)
    · exact absurd hc (by decide)
    · exact (place.endsNothing _ hc).2 (by decide)
    · exact (way.kept _ hc).2 rfl rfl
  have slashed : (('/' :: '/' :: ((renderAuthority a).toList ++ path.toList)).map fun c =>
      if c = '\\' then '/' else c).dropWhile (· = '/') =
        (renderAuthority a).toList ++ path.toList := by
    rw [List.map_congr_left noBackslash, List.map_id']
    have first := place.noSlash
    obtain ⟨c, cs, text⟩ := List.exists_cons_of_ne_nil (place.ne_nil web)
    rw [text] at first ⊢
    have apart : c ≠ '/' := fun same => first (same ▸ List.mem_cons_self)
    simp [apart]
  obtain ⟨rest, text, read⟩ := way.read
  rw [String.ofList_toList] at read
  unfold place?
  rw [if_pos web, slashed, text]
  simp only [cutOnce_append_cons place.noSlash, authority?_settled place]
  simp [read]

theorem place?_host {scheme : String} {a : Authority} {path : String}
    (notWeb : isWeb scheme = false) (place : SettledAuthority scheme a)
    (way : path.toList = [] ∨ SettledPath false path.toList) :
    place? scheme ('/' :: '/' :: ((renderAuthority a).toList ++ path.toList)) =
      some (some a, path) := by
  unfold place?
  rw [notWeb]
  obtain none | way := way
  · rw [none, List.append_nil]
    simp only [Bool.false_eq_true, if_false, cutOnce_of_not_mem place.noSlash,
      authority?_settled place]
    simp [String.toList_eq_nil_iff.1 none]
  · obtain ⟨rest, text, read⟩ := way.read
    rw [String.ofList_toList] at read
    simp only [Bool.false_eq_true, if_false, text, cutOnce_append_cons place.noSlash,
      authority?_settled place]
    simp [read]

/-- Without a host the path begins at a root, which a dot shows where it is in doubt. -/
theorem place?_rooted {scheme path : String} (notWeb : isWeb scheme = false)
    (way : SettledPath false path.toList) :
    place? scheme ((if ['/', '/'].isPrefixOf path.toList then ['/', '.'] else []) ++ path.toList) =
      some (none, path) := by
  obtain ⟨rest, text, read⟩ := way.read
  rw [String.ofList_toList] at read
  unfold place?
  rw [notWeb, text]
  cases rest with
  | nil => simp [read]
  | cons c cs =>
    by_cases slash : c = '/'
    · subst slash
      have dot : rootedPath ('.' :: '/' :: '/' :: cs) = rootedPath ('/' :: cs) := rfl
      simp [dot, read]
    · have single : ['/', '/'].isPrefixOf ('/' :: c :: cs) = false := by
        simpa [List.isPrefixOf] using Ne.symm slash
      rw [single]
      simp only [Bool.false_eq_true, if_false, List.nil_append]
      split
      · rename_i same
        cases same
        exact absurd rfl slash
      · rename_i same
        cases same
        rw [read]
      · rename_i other
        exact absurd rfl (other (c :: cs))

theorem place?_loose {scheme path : String} (notWeb : isWeb scheme = false)
    (kept : ∀ c ∈ path.toList, (isVisible c || c = ' ') = true)
    (noRoot : path.toList.head? ≠ some '/') :
    place? scheme path.toList = some (none, path) := by
  unfold place?
  rw [notWeb]
  simp only [Bool.false_eq_true, if_false]
  split
  · rename_i text
    exact absurd (congrArg List.head? text) noRoot
  · rename_i text
    exact absurd (congrArg List.head? text) noRoot
  · rw [encode_of_kept kept, String.ofList_toList]

theorem place?_settled {u : Url} (h : SettledPlace u.scheme u.authority u.path.toList) :
    place? u.scheme (u.renderPlace ++ u.path).toList = some (u.authority, u.path) := by
  obtain ⟨scheme, authority, path, query, fragment⟩ := u
  unfold renderPlace
  dsimp only at h ⊢
  generalize hp : path.toList = cs at h
  cases h with
  | web web place way =>
    subst hp
    simpa using place?_web web place way
  | host notWeb place way =>
    subst hp
    simpa using place?_host notWeb place way
  | rooted notWeb way =>
    subst hp
    have text : ((if ['/', '/'].isPrefixOf path.toList then "/." else "") ++ path).toList =
        (if ['/', '/'].isPrefixOf path.toList then ['/', '.'] else []) ++ path.toList := by
      split_ifs <;> simp
    exact text ▸ place?_rooted notWeb way
  | loose notWeb kept ends noRoot =>
    subst hp
    have single : ['/', '/'].isPrefixOf path.toList = false := by
      cases text : path.toList with
      | nil => rfl
      | cons c cs =>
        rw [text, List.head?_cons, ne_eq, Option.some_inj] at noRoot
        simp [List.isPrefixOf, Ne.symm noRoot]
    rw [single]
    simpa using place?_loose notWeb kept noRoot

/-! ## Places that were read -/

theorem SettledPath.noSpace {web : Bool} {cs : List Char} (h : SettledPath web cs) : ' ' ∉ cs :=
  fun hc => absurd (h.kept ' ' hc).1 (by decide)

def keptLoosely (c : Char) : Bool := isVisible c || c = ' '

section
variable {scheme path : String} {cs : List Char} {authority : Option Authority}
  (h : place? scheme cs = some (authority, path))
include h

end

end MarketFeed.Url
