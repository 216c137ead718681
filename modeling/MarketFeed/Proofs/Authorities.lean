import Mathlib
import MarketFeed.Proofs.Forms
import MarketFeed.Proofs.Numerals

/-!
# Authorities that are read back

User info, host and port of an address that was read are in a settled form, in which they are read
from their own text as what they are.
-/

namespace MarketFeed

/-! ## Characters that are kept -/

namespace Percent

variable {keeps : Char → Bool} {cs : List Char}

/-- What an encoding writes is kept. -/
structure Lasting (keeps : Char → Bool) : Prop where
  percent : keeps '%' = true
  digits : ∀ n < 16, keeps (Hex.capital n) = true

theorem mem_encode {d : Char} (h : d ∈ encode keeps cs) :
    d ∈ cs ∧ keeps d = true ∨ d = '%' ∨ ∃ n < 16, d = Hex.capital n := by
  obtain ⟨c, hc, hd⟩ := List.mem_flatMap.1 h
  split_ifs at hd with kept
  · exact .inl (List.mem_singleton.1 hd ▸ ⟨hc, kept⟩)
  · exact .inr (mem_encodeChar hd)

theorem Lasting.kept (h : Lasting keeps) {d : Char} (hd : d ∈ encode keeps cs) :
    keeps d = true := by
  rcases mem_encode hd with ⟨-, kept⟩ | rfl | ⟨n, small, rfl⟩
  · exact kept
  · exact h.percent
  · exact h.digits n small

theorem encode_of_kept (h : ∀ c ∈ cs, keeps c = true) : encode keeps cs = cs := by
  induction cs with
  | nil => rfl
  | cons c cs ih =>
    obtain ⟨first, others⟩ := List.forall_mem_cons.1 h
    have rest := ih others
    unfold encode at rest ⊢
    rw [List.flatMap_cons, if_pos first, rest]
    rfl

theorem decode_of_not_mem (h : '%' ∉ cs) : decode cs = Utf8.encode cs := by
  induction cs with
  | nil => rfl
  | cons c cs ih =>
    rw [List.mem_cons, not_or] at h
    rw [decode_cons (Ne.symm h.1), ih h.2]
    rfl

end Percent

theorem Hex.range_of_value? {c : Char} (h : (value? c).isSome = true) :
    48 ≤ c.toNat ∧ c.toNat ≤ 57 ∨ 97 ≤ c.toNat ∧ c.toNat ≤ 102 ∨ 65 ≤ c.toNat ∧ c.toNat ≤ 70 := by
  unfold value? at h
  split_ifs at h with digit lower upper
  · exact .inl digit
  · exact .inr (.inl lower)
  · exact .inr (.inr upper)
  · cases h

theorem asciiLower_eq_self {cs : List Char} (h : ∀ c ∈ cs, c.toLower = c) : asciiLower cs = cs :=
  (List.map_congr_left h).trans (List.map_id cs)

namespace Url

open Percent

inductive SettledUser : List Char → Prop
  | name {name : List Char} (h : ∀ c ∈ name, keptInUserInfo c = true) : SettledUser name
  | password {name password : List Char} (h : ∀ c ∈ name, keptInUserInfo c = true)
      (filled : password ≠ []) (h' : ∀ c ∈ password, keptInUserInfo c = true) :
      SettledUser (name ++ ':' :: password)

theorem noColon {cs : List Char} (h : ∀ c ∈ cs, keptInUserInfo c = true) : ':' ∉ cs := fun hc =>
  absurd (h ':' hc) (by decide)

theorem SettledUser.userInfo_eq {cs : List Char} (h : SettledUser cs) :
    userInfo cs = String.ofList cs := by
  unfold userInfo
  cases h with
  | name h =>
    rw [cutOnce_of_not_mem (noColon h)]
    have noPassword : encode keptInUserInfo [] = [] := rfl
    simp [encode_of_kept h, noPassword]
  | password h filled h' =>
    rw [cutOnce_append_cons (noColon h)]
    simp [encode_of_kept h, encode_of_kept h', filled]

/-! ## Hosts -/

/-- A host as it is written: an address in brackets, a name of the web, or another name. -/
inductive SettledHost (scheme : String) : List Char → Prop
  | address {inner : List Char}
      (h : ∀ c ∈ inner, ((Hex.value? c).isSome || c = ':' || c = '.') = true)
      (lower : ∀ c ∈ inner, c.toLower = c) : SettledHost scheme ('[' :: inner ++ [']'])
  | name {cs : List Char} (web : isWeb scheme = true) (filled : cs ≠ [])
      (h : ∀ c ∈ cs, isForbiddenInName c = false) (lower : ∀ c ∈ cs, c.toLower = c) :
      SettledHost scheme cs
  | other {cs : List Char} (notWeb : isWeb scheme = false)
      (h : ∀ c ∈ cs, isForbiddenInHost c = false) (visible : ∀ c ∈ cs, isVisible c = true) :
      SettledHost scheme cs

theorem host?_of_name {scheme : String} {cs : List Char} (web : isWeb scheme = true)
    (filled : cs ≠ []) (h : ∀ c ∈ cs, isForbiddenInName c = false)
    (lower : ∀ c ∈ cs, c.toLower = c) : host? scheme cs = some (String.ofList cs) := by
  have percent : '%' ∉ cs := fun hc => absurd (h '%' hc) (by decide)
  unfold host?
  rw [if_pos web, decode_of_not_mem percent, Utf8.decodeLossy_encode, String.toList_ofList,
    asciiLower_eq_self lower]
  have good : (cs.isEmpty || cs.any isForbiddenInName) = false := by simpa [filled] using h
  simp only [good, Bool.false_eq_true, if_false]

theorem host?_of_other {scheme : String} {cs : List Char} (notWeb : isWeb scheme = false)
    (h : ∀ c ∈ cs, isForbiddenInHost c = false) (visible : ∀ c ∈ cs, isVisible c = true) :
    host? scheme cs = some (String.ofList cs) := by
  have good : cs.any isForbiddenInHost = false := by simpa using h
  unfold host?
  rw [notWeb, good, encode_of_kept visible]
  rfl

def isInHost (c : Char) : Bool := isVisible c && !(['#', '/', '?', '@', '\\'].contains c)

theorem isInHost_of_not_forbidden {c : Char} (visible : isVisible c = true)
    (h : isForbiddenInHost c = false) : isInHost c = true := by
  simp [isForbiddenInHost] at h
  simp [isInHost, visible, h]

theorem not_forbidden_of_name {c : Char} (h : isForbiddenInName c = false) :
    isVisible c = true ∧ isForbiddenInHost c = false := by
  simp only [isForbiddenInName, Bool.or_eq_false_iff, Bool.not_eq_false'] at h
  exact ⟨h.1.1, h.2⟩

theorem isInHost_of_range {c : Char} (h : 48 ≤ c.toNat ∧ c.toNat ≤ 57 ∨
    97 ≤ c.toNat ∧ c.toNat ≤ 102 ∨ 65 ≤ c.toNat ∧ c.toNat ≤ 70) : isInHost c = true := by
  have apart : ∀ d ∈ ['#', '/', '?', '@', '\\'], c ≠ d := by
    rintro d hd rfl
    fin_cases hd <;> simp at h
  simp [isInHost, isVisible, apart]
  omega

theorem isInHost_of_address {c : Char}
    (h : ((Hex.value? c).isSome || c = ':' || c = '.') = true) : isInHost c = true := by
  simp only [Bool.or_eq_true, decide_eq_true_eq] at h
  obtain (hex | rfl) | rfl := h
  · exact isInHost_of_range (Hex.range_of_value? hex)
  · decide
  · decide

theorem SettledHost.inHost {scheme : String} {cs : List Char} (h : SettledHost scheme cs) :
    ∀ c ∈ cs, isInHost c = true := by
  cases h with
  | address h lower =>
    intro c hc
    simp only [List.mem_cons, List.mem_append, List.not_mem_nil, or_false] at hc
    rcases hc with (rfl | hc) | rfl
    · decide
    · exact isInHost_of_address (h c hc)
    · decide
  | name web filled h lower =>
    intro c hc
    obtain ⟨visible, allowed⟩ := not_forbidden_of_name (h c hc)
    exact isInHost_of_not_forbidden visible allowed
  | other notWeb h visible => exact fun c hc => isInHost_of_not_forbidden (visible c hc) (h c hc)

/-! ## Ports -/

def portDigits (port : Option Nat) : List Char := (port.map (Nat.toDigits 10)).getD []

def portText (port : Option Nat) : List Char := led ':' (port.map (Nat.toDigits 10))

theorem portText_inHost {port : Option Nat} : ∀ c ∈ portText port, isInHost c = true := by
  cases port with
  | none => exact nofun
  | some n =>
    rintro c (_ | ⟨_, hc⟩)
    · decide
    · have digit := Nat.isDigit_of_mem_toDigits (by omega) le_rfl hc
      exact isInHost_of_range (.inl (Digits.code_range digit))

def SettledPort (scheme : String) (port : Option Nat) : Prop :=
  ∀ n ∈ port, n < 2 ^ 16 ∧ defaultPort? scheme ≠ some n

theorem port?_portDigits {scheme : String} {port : Option Nat} (h : SettledPort scheme port) :
    port? scheme (portDigits port) = some port := by
  cases port with
  | none => rfl
  | some n =>
    obtain ⟨small, other⟩ := h n rfl
    have digits := Json.Literal.toNat?_run (Json.isWhole_toDigits n).1
    rw [Digits.value_toDigits] at digits
    have filled : (Nat.toDigits 10 n).isEmpty = false := by simp [Nat.toDigits_ne_nil]
    show port? scheme (Nat.toDigits 10 n) = _
    have fits : decide (n < 1 <<< 16) = true := decide_eq_true small
    unfold port?
    rw [filled, digits]
    simp only [Bool.false_eq_true, if_false, Option.filter_some, fits, if_true, Option.map_some,
      if_neg other]

theorem hostAndRest?_bare {scheme : String} {host : List Char} {port : Option Nat}
    (bracket : '[' ∉ host) (colon : ':' ∉ host)
    (read : host? scheme host = some (String.ofList host)) (named : port ≠ none → host ≠ []) :
    hostAndRest? scheme (host ++ portText port) = some (String.ofList host, portDigits port) := by
  unfold hostAndRest?
  split
  · rename_i r same
    -- Neither the host nor a port begins with a bracket.
    exfalso
    cases host with
    | nil => cases port <;> cases same
    | cons c cs =>
      cases same
      exact bracket List.mem_cons_self
  · have cut := cutOnce_append_led colon (port.map (Nat.toDigits 10))
    change cutOnce ':' (host ++ portText port) = _ at cut
    have nonempty : (String.ofList host ≠ "" || (port.map (Nat.toDigits 10)).isNone) = true := by
      cases port with
      | none => simp
      | some n => simpa using named nofun
    rw [cut]
    simp only [read, Option.bind_eq_bind, Option.bind_some, nonempty, guard, if_true]
    rfl

theorem hostAndRest?_settled {scheme : String} {host : List Char} {port : Option Nat}
    (h : SettledHost scheme host) (named : port ≠ none → host ≠ []) :
    hostAndRest? scheme (host ++ portText port) = some (String.ofList host, portDigits port) := by
  cases h with
  | @address inner hex lower =>
    have bracket : ']' ∉ inner := fun hc => absurd (hex ']' hc) (by decide)
    have all : inner.all (fun c => (Hex.value? c).isSome || c = ':' || c = '.') = true := by
      simpa using hex
    have regroup : '[' :: inner ++ [']'] ++ portText port =
        '[' :: (inner ++ ']' :: portText port) := by simp
    rw [regroup]
    unfold hostAndRest?
    simp only [cutOnce_append_cons bracket, all, if_true, asciiLower_eq_self lower]
    cases port with
    | none => rfl
    | some n => rfl
  | name web filled h lower =>
    exact hostAndRest?_bare (fun hc => absurd (h '[' hc) (by decide))
      (fun hc => absurd (h ':' hc) (by decide)) (host?_of_name web filled h lower) named
  | other notWeb h visible =>
    exact hostAndRest?_bare (fun hc => absurd (h '[' hc) (by decide))
      (fun hc => absurd (h ':' hc) (by decide)) (host?_of_other notWeb h visible) named

structure SettledAuthority (scheme : String) (a : Authority) : Prop where
  user : SettledUser a.userInfo.toList
  host : SettledHost scheme a.host.toList
  port : SettledPort scheme a.port
  bare : a.host = "" → a.userInfo = "" ∧ a.port = none

theorem renderAuthority_toList (a : Authority) : (renderAuthority a).toList =
    (if a.userInfo = "" then [] else a.userInfo.toList ++ ['@']) ++
      (a.host.toList ++ portText a.port) := by
  unfold renderAuthority portText led
  cases a.port <;> split_ifs <;> simp

/-- The user info ends at the last of its signs. -/
theorem authority?_append {scheme : String} {last : List Char} (h : '@' ∉ last)
    (first : List Char) : authority? scheme (first ++ '@' :: last) = do
      let (host, rest) ← hostAndRest? scheme last
      guard (host ≠ "" || userInfo first = "")
      let port ← port? scheme rest
      return { userInfo := userInfo first, host, port } := by
  have kept : ∀ c ∈ last.reverse, decide (c ≠ '@') = true := by
    intro c hc
    simpa using ne_of_mem_of_not_mem (List.mem_reverse.1 hc) h
  have regroup : (first ++ '@' :: last).reverse = last.reverse ++ '@' :: first.reverse := by simp
  have taken : ((first ++ '@' :: last).reverse.takeWhile (· ≠ '@')).reverse = last := by
    rw [regroup, List.takeWhile_append_of_pos kept]
    simp
  have dropped : ((first ++ '@' :: last).reverse.dropWhile (· ≠ '@')).tail.reverse = first := by
    rw [regroup, List.dropWhile_append_of_pos kept]
    simp
  unfold authority?
  rw [taken, dropped]

theorem authority?_of_not_mem {scheme : String} {cs : List Char} (h : '@' ∉ cs) :
    authority? scheme cs = do
      let (host, rest) ← hostAndRest? scheme cs
      let port ← port? scheme rest
      return { host, port } := by
  have kept : ∀ c ∈ cs.reverse, decide (c ≠ '@') = true := by
    intro c hc
    simpa using ne_of_mem_of_not_mem (List.mem_reverse.1 hc) h
  have taken : (cs.reverse.takeWhile (· ≠ '@')).reverse = cs := by
    rw [List.takeWhile_eq_self_iff.2 kept, List.reverse_reverse]
  have dropped : (cs.reverse.dropWhile (· ≠ '@')).tail.reverse = [] := by
    rw [List.dropWhile_eq_nil_iff.2 kept]
    rfl
  have nobody : userInfo [] = "" := by decide
  unfold authority?
  rw [taken, dropped]
  simp [nobody, guard]

theorem authority?_settled {scheme : String} {a : Authority} (h : SettledAuthority scheme a) :
    authority? scheme (renderAuthority a).toList = some a := by
  have named : a.port ≠ none → a.host.toList ≠ [] := by
    intro port none
    exact port (h.bare (String.toList_eq_nil_iff.1 none)).2
  have read := hostAndRest?_settled h.host named
  have port := port?_portDigits h.port
  have noSign : '@' ∉ a.host.toList ++ portText a.port := by
    intro hc
    obtain hc | hc := List.mem_append.1 hc
    · exact absurd (h.host.inHost '@' hc) (by decide)
    · exact absurd (portText_inHost '@' hc) (by decide)
  rw [String.ofList_toList] at read
  rw [renderAuthority_toList]
  split_ifs with nobody
  · rw [List.nil_append, authority?_of_not_mem noSign, read]
    simp only [Option.bind_eq_bind, Option.bind_some, port]
    rw [← nobody]
    rfl
  · have user := h.user.userInfo_eq
    rw [String.ofList_toList] at user
    rw [List.append_assoc, List.singleton_append, authority?_append noSign, read, user]
    have named : (a.host ≠ "" || a.userInfo = "") = true := by
      simpa [nobody] using mt h.bare (not_and_of_not_left _ nobody)
    simp only [Option.bind_eq_bind, Option.bind_some, named, guard, if_true, port]
    rfl

/-! ## Authorities that were read -/

end Url

end MarketFeed
