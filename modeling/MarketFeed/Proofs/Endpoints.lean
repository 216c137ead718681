import Mathlib
import MarketFeed.Session.Manager

/-!
# Endpoints of renewals

The kind of a session, and with it the endpoint that renews it, is read off its whole address. A query
can therefore make an account session of another, and hide that an address ends in `/accounts`.
-/

namespace MarketFeed

namespace SessionKind

/-! ## Texts with a separator -/

theorem occurs_iff {text cs : List Char} : occurs text cs = true ↔ text <:+: cs := by
  induction cs with
  | nil => simp [occurs]
  | cons c cs ih =>
    rw [occurs, Bool.or_eq_true, ih, List.isPrefixOf_iff_prefix, List.infix_cons_iff]

section
variable {text before after : List Char} {c : Char} (h : c ∉ text)
include h

theorem eq_nil_of_prefix_cons (hp : text <+: c :: after) : text = [] := by
  obtain rfl | ⟨rest, rfl, -⟩ := List.prefix_cons_iff.1 hp
  · rfl
  · exact absurd (List.mem_cons_self ..) h

theorem infix_append_cons_iff :
    text <:+: before ++ c :: after ↔ text <:+: before ∨ text <:+: after := by
  rw [List.infix_append_iff]
  constructor
  · rintro (left | right | ⟨front, back, rfl, left, right⟩)
    · exact .inl left
    · rcases List.infix_cons_iff.1 right with first | later
      · rw [eq_nil_of_prefix_cons h first]
        exact .inl List.nil_infix
      · exact .inr later
    · -- What of the text stands behind the separator would start with it.
      have none := eq_nil_of_prefix_cons (fun hc => h (List.mem_append_right _ hc)) right
      rw [none, List.append_nil]
      exact .inl left.isInfix
  · rintro (left | right)
    · exact .inl left
    · exact .inr (.inl (List.infix_cons right))

theorem suffix_append_cons_iff : text <:+ before ++ c :: after ↔ text <:+ after := by
  constructor
  · intro whole
    rcases List.suffix_or_suffix_of_suffix whole (List.suffix_append before (c :: after)) with
      short | long
    · rcases List.suffix_cons_iff.1 short with rfl | later
      · exact absurd (List.mem_cons_self ..) h
      · exact later
    · exact absurd (long.subset (List.mem_cons_self ..)) h
  · exact fun last => last.trans ((List.suffix_cons c after).trans (List.suffix_append ..))

end

/-! ## Kinds of addresses -/

def Passes (url : String) : Prop := "/accounts/".toList <:+: url.toList

def Ends (url : String) : Prop := "/accounts".toList <:+ url.toList

theorem ofUrl_eq_account_iff (url : String) : ofUrl url = account ↔ Passes url ∨ Ends url := by
  unfold ofUrl
  simp only [Bool.or_eq_true, occurs_iff, List.isSuffixOf_iff_suffix]
  split_ifs with h
  · exact iff_of_true rfl h
  · exact iff_of_false (by simp) h

theorem eq_iff_of {k l : SessionKind} {shared own own' : Prop} (hk : k = account ↔ shared ∨ own)
    (hl : l = account ↔ shared ∨ own') : k = l ↔ shared ∨ (own ↔ own') := by
  have same : k = l ↔ (k = account ↔ l = account) := by cases k <;> cases l <;> decide
  rw [same, hk, hl]
  by_cases h : shared <;> simp [h]

theorem passes_query (u q : String) : Passes (u ++ "?" ++ q) ↔ Passes u ∨ Passes q := by
  unfold Passes
  rw [String.toList_append, String.toList_append, List.append_assoc]
  exact infix_append_cons_iff (by decide)

theorem ends_query (u q : String) : Ends (u ++ "?" ++ q) ↔ Ends q := by
  unfold Ends
  rw [String.toList_append, String.toList_append, List.append_assoc]
  exact suffix_append_cons_iff (by decide)

theorem ofUrl_query (u q : String) :
    ofUrl (u ++ "?" ++ q) = account ↔ Passes u ∨ ofUrl q = account := by
  rw [ofUrl_eq_account_iff, passes_query, ends_query, ofUrl_eq_account_iff, or_assoc]

/-! ## Requests -/

theorem request_injective : Function.Injective request := by
  intro k l h
  cases k <;> cases l <;> first | rfl | exact absurd h (by decide)

end SessionKind

theorem SessionSettings.renew_asked (settings : SessionSettings) (now : Instant) (session : Session)
    (script : Script) : (settings.renew Script.service now session script).2.asked =
      script.asked ++ [session.kind.request] := by
  obtain ⟨_ | ⟨outcome, outcomes⟩, asked⟩ := script <;> rfl

namespace SessionKind

/-- A query leaves the kind of a session as it is, and the request that renews it, exactly if the
address passes `/accounts/`, or else if it ends in `/accounts` just when the query by itself would be
that of an account. Two queries count alike exactly if the address passes `/accounts/` or they do by
themselves. -/
theorem query_kept_iff (u q : String) :
    (ofUrl (u ++ "?" ++ q) = ofUrl u ↔ Passes u ∨ (Ends u ↔ Passes q ∨ Ends q)) ∧
    (∀ p, ofUrl (u ++ "?" ++ p) = ofUrl (u ++ "?" ++ q) ↔
      Passes u ∨ (Passes p ∨ Ends p ↔ Passes q ∨ Ends q)) ∧
    ∀ (settings : SessionSettings) (now : Instant) (session : Session) (script : Script),
      (settings.renew Script.service now { session with url := u ++ "?" ++ q } script).2.asked =
          (settings.renew Script.service now { session with url := u } script).2.asked ↔
        Passes u ∨ (Ends u ↔ Passes q ∨ Ends q) := by
  have query (q : String) : ofUrl (u ++ "?" ++ q) = account ↔ Passes u ∨ (Passes q ∨ Ends q) := by
    rw [ofUrl_query, ofUrl_eq_account_iff]
  have kept : ofUrl (u ++ "?" ++ q) = ofUrl u ↔ Passes u ∨ (Ends u ↔ Passes q ∨ Ends q) :=
    eq_comm.trans (eq_iff_of (ofUrl_eq_account_iff u) (query q))
  refine ⟨kept, fun p => eq_iff_of (query p) (query q), fun settings now session script => ?_⟩
  rw [SessionSettings.renew_asked, SessionSettings.renew_asked, List.append_cancel_left_eq,
    List.singleton_inj, request_injective.eq_iff]
  exact kept

/-- A market session is renewed as one of an account because of its query, and the other way round. -/
theorem query_misleads :
    ofUrl "wss://ws/v1/markets/events" = market ∧
      ofUrl ("wss://ws/v1/markets/events" ++ "?" ++ "next=/accounts/1") = account ∧
      ofUrl "wss://ws/v1/accounts" = account ∧
      ofUrl ("wss://ws/v1/accounts" ++ "?" ++ "linebreak=true") = market := by
  decide

end SessionKind

end MarketFeed
