import MarketFeed.Session.Manager

/-!
# Renewals

A session is held while sessions are created and renewed, step after step, by a service that
answers from a script. Every run of such steps is described by what each of them asks of the
service, what it concludes from the answer and which session is held after it.
-/

namespace MarketFeed

inductive SessionStep where
  | create (kind : SessionKind)
  | renew
  | renewIfExpiring
  deriving DecidableEq, Repr

structure Holding where
  session : Session
  script : Script

namespace Holding

def keep (h : Holding) : Except FeedError (Option Session) × Script →
    Except FeedError Bool × Holding
  | (.ok (some session), script) => (.ok true, ⟨session, script⟩)
  | (.ok none, script) => (.ok false, ⟨h.session, script⟩)
  | (.error e, script) => (.error e, ⟨h.session, script⟩)

def perform (settings : SessionSettings) (now : Instant) (h : Holding) :
    SessionStep → Except FeedError Bool × Holding
  | .create kind =>
    let (result, script) := settings.create Script.service now kind h.script
    h.keep (result.map some, script)
  | .renew =>
    let (result, script) := settings.renew Script.service now h.session h.script
    h.keep (result.map some, script)
  | .renewIfExpiring => h.keep (settings.renewIfExpiring Script.service now h.session h.script)

def run (settings : SessionSettings) (h : Holding) :
    List (Instant × SessionStep) → List (Except FeedError Bool) × Holding
  | [] => ([], h)
  | (now, step) :: steps =>
    let (result, h) := h.perform settings now step
    let (results, h) := h.run settings steps
    (result :: results, h)

/-! ## What a step is to do -/

inductive Wants (settings : SessionSettings) (now : Instant) (held : Session) :
    SessionStep → Option SessionKind → Prop
  | create (kind : SessionKind) : Wants settings now held (.create kind) (some kind)
  | renew : Wants settings now held .renew (some (.ofUrl held.url))
  | expiring (h : held.expiresWithin now settings.renewMargin = true) :
      Wants settings now held .renewIfExpiring (some (.ofUrl held.url))
  | fresh (h : held.expiresWithin now settings.renewMargin = false) :
      Wants settings now held .renewIfExpiring none

structure Asked (kind : SessionKind) (before after : Script) (outcome : Outcome) : Prop where
  asked : after.asked = before.asked ++ [{
    method := .post
    path := match kind with
      | .market => "/v1/markets/events/session"
      | .account => "/v1/accounts/events/session"
    params := [] }]
  outcome : outcome = before.outcomes.headD (.error (.network "script exhausted"))
  outcomes : after.outcomes = before.outcomes.tail

inductive Answered (now : Instant) (ttl : Duration) (held : Session) :
    Outcome → Except FeedError Bool → Session → Prop
  | made {r : Response} {session : Session} (hs : 200 ≤ r.status ∧ r.status ≤ 299)
      (hb : Session.ofBody now ttl r.body = .ok session) :
      Answered now ttl held (.ok r) (.ok true) session
  | unread {r : Response} {detail : String} (hs : 200 ≤ r.status ∧ r.status ≤ 299)
      (hb : Session.ofBody now ttl r.body = .error (.parse detail)) :
      Answered now ttl held (.ok r) (.error (.parse detail)) held
  | refused {r : Response} (hs : ¬ (200 ≤ r.status ∧ r.status ≤ 299)) :
      Answered now ttl held (.ok r) (.error (.api r.status r.body)) held
  | failed (e : FeedError) : Answered now ttl held (.error e) (.error e) held

inductive Performs (settings : SessionSettings) (now : Instant) (step : SessionStep)
    (before : Holding) : Except FeedError Bool → Holding → Prop
  | asked {kind : SessionKind} {outcome : Outcome} {result : Except FeedError Bool}
      {after : Holding} (hw : Wants settings now before.session step (some kind))
      (ha : Asked kind before.script after.script outcome)
      (hc : Answered now settings.ttl before.session outcome result after.session) :
      Performs settings now step before result after
  | spared (hw : Wants settings now before.session step none) :
      Performs settings now step before (.ok false) before

inductive Runs (settings : SessionSettings) :
    Holding → List (Instant × SessionStep) → List (Except FeedError Bool) → Holding → Prop
  | done (h : Holding) : Runs settings h [] [] h
  | next {now : Instant} {step : SessionStep} {steps : List (Instant × SessionStep)}
      {result : Except FeedError Bool} {results : List (Except FeedError Bool)}
      {before middle after : Holding} (first : Performs settings now step before result middle)
      (rest : Runs settings middle steps results after) :
      Runs settings before ((now, step) :: steps) (result :: results) after

end Holding

/-! ## One step -/

theorem Session.ofBody_eq_error {now : Instant} {ttl : Duration} {body : String} {e : FeedError}
    (h : ofBody now ttl body = .error e) : ∃ detail, e = .parse detail := by
  unfold ofBody at h
  cases hj : Json.parse? body with
  | none =>
    rw [hj] at h
    cases h
    exact ⟨_, rfl⟩
  | some value =>
    rw [hj] at h
    have missing {key : String} {e : FeedError}
        (hm : stringMember (description value) key = .error e) : ∃ detail, e = .parse detail := by
      unfold stringMember at hm
      split at hm
      · cases hm
      · cases hm
        exact ⟨_, rfl⟩
    dsimp only at h
    cases hu : stringMember (description value) "url" with
    | error e' =>
      rw [hu] at h
      cases h
      exact missing hu
    | ok url =>
      cases hi : stringMember (description value) "sessionid" with
      | error e' =>
        rw [hu, hi] at h
        cases h
        exact missing hi
      | ok id =>
        rw [hu, hi] at h
        cases h

namespace Holding

variable (settings : SessionSettings) (now : Instant)

theorem service_asked (kind : SessionKind) (s : Script) :
    Asked kind s (Script.service.perform kind.request s).2
      (Script.service.perform kind.request s).1 := by
  have request : kind.request = { method := .post, path := match kind with
      | .market => "/v1/markets/events/session"
      | .account => "/v1/accounts/events/session" } := by
    cases kind <;> rfl
  rw [request]
  obtain ⟨_ | ⟨outcome, outcomes⟩, asked⟩ := s
  · exact ⟨rfl, rfl, rfl⟩
  · exact ⟨rfl, rfl, rfl⟩

theorem keep_answered (ttl : Duration) (h : Holding) (outcome : Outcome) (script : Script) :
    let kept := h.keep ((Session.ofOutcome now ttl outcome).map some, script)
    Answered now ttl h.session outcome kept.1 kept.2.session ∧ kept.2.script = script := by
  cases outcome with
  | error e => exact ⟨.failed e, rfl⟩
  | ok r =>
    have success : r.isSuccess = true ↔ 200 ≤ r.status ∧ r.status ≤ 299 := by
      simp [Response.isSuccess]
      omega
    unfold Session.ofOutcome Session.ofResponse
    by_cases hs : r.isSuccess = true
    · simp only [if_pos hs]
      cases hb : Session.ofBody now ttl r.body with
      | ok session => exact ⟨.made (success.1 hs) hb, rfl⟩
      | error e =>
        obtain ⟨detail, rfl⟩ := Session.ofBody_eq_error hb
        exact ⟨.unread (success.1 hs) hb, rfl⟩
    · simp only [if_neg hs]
      exact ⟨.refused fun h => hs (success.2 h), rfl⟩

theorem create_performs {step : SessionStep} {kind : SessionKind} (h : Holding)
    (hw : Wants settings now h.session step (some kind)) :
    let created := settings.create Script.service now kind h.script
    let kept := h.keep (created.1.map some, created.2)
    Performs settings now step h kept.1 kept.2 := by
  intro created kept
  obtain ⟨answered, same⟩ := keep_answered now settings.ttl h
    (Script.service.perform kind.request h.script).1 (Script.service.perform kind.request h.script).2
  have asked := service_asked kind h.script
  rw [← same] at asked
  exact .asked hw asked answered

theorem perform_performs (h : Holding) (step : SessionStep) :
    Performs settings now step h (h.perform settings now step).1
      (h.perform settings now step).2 := by
  cases step with
  | create kind => exact create_performs settings now h (.create kind)
  | renew => exact create_performs settings now h .renew
  | renewIfExpiring =>
    by_cases he : h.session.expiresWithin now settings.renewMargin = true
    · have renews : h.perform settings now .renewIfExpiring = h.perform settings now .renew := by
        unfold perform SessionSettings.renewIfExpiring
        simp only [if_pos he]
      rw [renews]
      exact create_performs settings now h (.expiring he)
    · have spares : h.perform settings now .renewIfExpiring = (.ok false, h) := by
        unfold perform SessionSettings.renewIfExpiring
        simp only [if_neg he]
        rfl
      rw [spares]
      exact .spared (.fresh (by simpa using he))

/-- In every run of steps, each step that creates or renews a session makes one request, to the
endpoint of its kind, and a session that does not expire soon is spared one; the session that a
successful answer describes is held from then on, and after any other outcome the step fails with it
and the same session is held as before. -/
theorem run_performs (steps : List (Instant × SessionStep)) (h : Holding) :
    Runs settings h steps (h.run settings steps).1 (h.run settings steps).2 := by
  induction steps generalizing h with
  | nil => exact .done h
  | cons step steps ih => exact .next (perform_performs settings step.1 h step.2) (ih _)

end Holding

end MarketFeed
