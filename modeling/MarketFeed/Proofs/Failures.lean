import Mathlib
import MarketFeed.Proofs.Carriage
import MarketFeed.Proofs.Coherence
import MarketFeed.Proofs.Reports

/-!
# Failures of connecting

A connect or a reconnection that fails does so by one call, and the error of that call is reported on
the way and answered in the end. One that succeeds has only those errors reported that came of
restoring subscriptions.
-/

namespace MarketFeed

/-! ## What failed -/

def errorOf? {α : Type} : Except FeedError α → Option FeedError
  | .ok _ => none
  | .error e => some e

namespace Client

variable {τ : Type} (w : World τ)

section
variable {w} {c c' : Client τ} {requests calls : List Call}
  {held : Except FeedError (Option Session)} {result : Except FeedError Unit}

theorem Reports.recorded (h : Reports c c') (hc : c'.calls = c.calls ++ calls) :
    c.dispatcher.journal.Recorded c'.dispatcher.journal (calls.filterMap Call.failure?) := by
  obtain ⟨added, ha, recorded⟩ := h
  rw [hc] at ha
  rwa [← List.append_cancel_left ha] at recorded

theorem failure?_asking (ttl : Duration) (kind : SessionKind) (c : Client τ) :
    (asking w kind c).failure? = errorOf? (grant w ttl kind c) := by
  rw [asking, Call.failure?_request (w.now c.world).1 ttl]
  show _ = errorOf? (Session.ofOutcome _ _ _)
  cases Session.ofOutcome _ _ _ <;> rfl

theorem Checks.failures (checks : Checks w c requests held) :
    requests.filterMap Call.failure? = (errorOf? held).toList := by
  cases checks with
  | keeps => rfl
  | @renews settings session =>
    have asked := failure?_asking (w := w) settings.ttl session.kind (looked w c)
    cases hg : grant w settings.ttl session.kind (looked w c) <;>
      simp [asked, hg, errorOf?, Except.map]

theorem Renewals.failures (renewals : Renewals w c requests held) :
    requests.filterMap Call.failure? = (errorOf? held).toList := by
  cases renewals with
  | none => rfl
  | @refused settings held e hm hs hg =>
    have asked := failure?_asking (w := w) settings.ttl held.kind c
    simp [asked, hg, errorOf?]
  | @once settings held renewed hm hs hg =>
    have asked := failure?_asking (w := w) settings.ttl held.kind c
    simp [asked, hg, errorOf?]
  | @twice settings held renewed hm hs hg =>
    have asked := failure?_asking (w := w) settings.ttl held.kind c
    have again := failure?_asking (w := w) settings.ttl renewed.kind (looked w (requested w held.kind c))
    cases hg' : grant w settings.ttl renewed.kind (looked w (requested w held.kind c)) <;>
      simp [asked, again, hg, hg', errorOf?, Except.map]

theorem Opens.failures {token : String} {up : Bool} (opens : Opens token held calls result up) :
    (errorOf? held).toList ++ calls.filterMap Call.failure? = (errorOf? result).toList := by
  cases opens <;> simp [errorOf?, Call.failure?]

/-! ## Connecting -/

theorem connect_reports (c : Client τ) : Reports c (connect w c).2 :=
  reports_along (fun _ _ => Link.reports) (connect_walks w c trivial).1

theorem connect_closed_failures (hp : c.phase ≠ .connected) : ∃ made,
    (connect w c).2.calls = c.calls ++ made ∧
      made.filterMap Call.failure? = (errorOf? (connect w c).1).toList := by
  obtain ⟨requests, held, calls, up, checks, opens, -, track⟩ := connect_course w hp
  refine ⟨_, track.calls, ?_⟩
  rw [List.filterMap_append, checks.failures]
  exact opens.failures

theorem connect_failures (c : Client τ) : ∃ made, (connect w c).2.calls = c.calls ++ made ∧
    made.filterMap Call.failure? = (errorOf? (connect w c).1).toList := by
  by_cases hp : c.phase = .connected
  · obtain ⟨s, look⟩ := isConnected_world w c
    rw [connect_connected w hp]
    by_cases hb : (isConnected w c).1 = true
    · rw [if_pos hb, look]
      exact ⟨[], (List.append_nil _).symm, rfl⟩
    · rw [if_neg hb]
      obtain ⟨made, calls, failures⟩ :=
        connect_closed_failures (teardown_phase w (isConnected w c).2)
      refine ⟨.disconnect :: made, ?_, failures⟩
      rw [calls, (teardown_track w _).calls, look, List.append_assoc]
      rfl
  · exact connect_closed_failures hp

theorem connect_recorded (c : Client τ) : c.dispatcher.journal.Recorded
    (connect w c).2.dispatcher.journal (errorOf? (connect w c).1).toList := by
  obtain ⟨made, calls, failures⟩ := connect_failures (w := w) c
  rw [← failures]
  exact (connect_reports c).recorded calls

/-! ## Reconnecting -/

theorem restoring_failures {r : Registry} {sent : List (Frame × Except FeedError Unit)}
    (h : sent.map Prod.fst = r.replayFrames) :
    (sent.map fun s => Call.send s.1 s.2).filterMap Call.failure? =
      sent.filterMap fun s => errorOf? s.2 := by
  rw [List.filterMap_map]
  apply List.filterMap_congr
  intro s hs
  have frame : s.1 ∈ r.replayFrames := h ▸ List.mem_map.2 ⟨s, hs, rfl⟩
  show (Call.send s.1 s.2).failure? = _
  rw [Call.failure?_send (replayFrames_allowed r _ frame)]
  cases s.2 <;> rfl

theorem Ends.failures {token : String} {r : Registry} {rest : List Call} {n : Nat}
    (ends : Ends token r held rest result n) :
    ∃ opening, ∃ sent : List (Frame × Except FeedError Unit),
      rest = opening ++ sent.map (fun s => .send s.1 s.2) ∧
      (errorOf? held).toList ++ opening.filterMap Call.failure? = (errorOf? result).toList ∧
      (∀ call ∈ opening, call.isSending = false) ∧
      sent.map Prod.fst = (if opening.any Call.isOpening then r.replayFrames else []) ∧
      (result ≠ .ok () → sent = []) := by
  cases ends with
  | refused e => exact ⟨[], [], rfl, rfl, by simp, rfl, fun _ => rfl⟩
  | idle => exact ⟨[], [], rfl, rfl, by simp, rfl, fun _ => rfl⟩
  | failed h e => exact ⟨[_], [], rfl, rfl, by simp [Call.isSending], rfl, fun _ => rfl⟩
  | @restored s h sent hs =>
    refine ⟨[_], sent, rfl, rfl, by simp [Call.isSending], ?_, fun failed => absurd rfl failed⟩
    rw [hs, ← Registry.replayFrames_eq]
    rfl

theorem Renewals.requests_only (renewals : Renewals w c requests held) :
    (∀ call ∈ requests, call.isSending = false) ∧ requests.any Call.isOpening = false := by
  cases renewals <;> simp [asking, Call.isSending, Call.isOpening]

end

/-- A reconnection makes these calls first, which fail as it fails, and then sends these frames. -/
theorem reconnectAfter_failures (delay : Duration) (c : Client τ) :
    ∃ made, ∃ sent : List (Frame × Except FeedError Unit),
      (reconnectAfter w delay c).2.calls = c.calls ++ (made ++ sent.map fun s => .send s.1 s.2) ∧
      (∀ call ∈ made, call.isSending = false) ∧
      sent.map Prod.fst =
        (if made.any Call.isOpening then c.dispatcher.registry.replayFrames else []) ∧
      ((reconnectAfter w delay c).1 ≠ .ok () → sent = []) ∧
      c.dispatcher.journal.Recorded (reconnectAfter w delay c).2.dispatcher.journal
        ((errorOf? (reconnectAfter w delay c).1).toList ++ sent.filterMap fun s => errorOf? s.2) := by
  obtain ⟨requests, held, rest, n, renewals, ends, track⟩ := reconnectAfter_course w delay c
  have reports : Reports c (reconnectAfter w delay c).2 :=
    reports_along (fun _ _ => LineStep.reports) (reconnectAfter_lines w delay c trivial).1
  have recorded := reports.recorded track.calls
  obtain ⟨opening, sent, rfl, failures, unsent, frames, quiet⟩ := ends.failures
  obtain ⟨asked, unopened⟩ := renewals.requests_only
  refine ⟨.disconnect :: (requests ++ opening), sent, ?_, ?_, ?_, quiet, ?_⟩
  · rw [track.calls]
    simp
  · intro call hm
    rcases List.mem_cons.1 hm with rfl | hm
    · rfl
    · exact (List.mem_append.1 hm).elim (asked call) (unsent call)
  · rw [frames]
    simp [unopened, Call.isOpening]
  · have restoring : (sent.map fun s => Call.send s.1 s.2).filterMap Call.failure? =
        sent.filterMap fun s => errorOf? s.2 := by
      by_cases up : opening.any Call.isOpening = true
      · exact restoring_failures (frames.trans (if_pos up))
      · rw [if_neg up] at frames
        rw [List.map_eq_nil_iff.1 frames]
        rfl
    rw [List.cons_append, List.filterMap_cons, List.filterMap_append, List.filterMap_append,
      renewals.failures, restoring, ← List.append_assoc, failures] at recorded
    exact recorded

/-! ## Every run -/

theorem Aligned.down {c : Client τ} (h : Aligned c) (hp : c.phase ≠ .connected) :
    c.phase = .disconnected ∧ c.heartbeat = none := by
  refine ⟨h.settled.resolve_left hp, ?_⟩
  simpa using mt h.heartbeat.2 hp

/-- After every run: a connect or a reconnection that fails has reported its error, once and no other,
and leaves the client disconnected without a heartbeat. A connect that does not fail has reported
nothing, and a reconnection just the errors of the frames that it sent to restore subscriptions, one
each and in the order of the frames. -/
theorem connecting_reports_once (world : τ) (settings : StreamSettings)
    (sessions : Option SessionSettings) (token : String) (runtime : Runtime) (before : List Action) :
    let c := after w before (create world settings sessions token runtime)
    let opened := connect w c
    let reopened := reconnect w c
    (∀ e, opened.1 = .error e →
      c.dispatcher.journal.Recorded opened.2.dispatcher.journal [e] ∧
        opened.2.phase = .disconnected ∧ opened.2.heartbeat = none) ∧
    (opened.1 = .ok () → c.dispatcher.journal.Recorded opened.2.dispatcher.journal []) ∧
    (∀ e, reopened.1 = .error e →
      c.dispatcher.journal.Recorded reopened.2.dispatcher.journal [e] ∧
        reopened.2.phase = .disconnected ∧ reopened.2.heartbeat = none) ∧
    (reopened.1 = .ok () → ∃ made, ∃ sent : List (Frame × Except FeedError Unit),
      reopened.2.calls = c.calls ++ (made ++ sent.map fun s => .send s.1 s.2) ∧
        (∀ call ∈ made, call.isSending = false) ∧
        sent.map Prod.fst =
          (if made.any Call.isOpening then c.dispatcher.registry.replayFrames else []) ∧
        c.dispatcher.journal.Recorded reopened.2.dispatcher.journal
          (sent.filterMap fun s => errorOf? s.2)) := by
  intro c opened reopened
  have coherent : Coherent c := coherent_after w world settings sessions token runtime before
  have connected := connect_recorded (w := w) c
  obtain ⟨made, sent, calls, unsent, frames, quiet, recorded⟩ :=
    reconnectAfter_failures w c.settings.reconnectDelay c
  refine ⟨?_, ?_, ?_, ?_⟩
  · intro e he
    have down : opened.2.phase ≠ .connected := (connect_walks w c trivial).2 e he
    have aligned : Coherent opened.2 := ((connect_walks w).mono fun _ _ => .link).coherent trivial coherent
    rw [show (connect w c).1 = .error e from he] at connected
    exact ⟨connected, aligned.toAligned.down down⟩
  · intro hok
    rw [show (connect w c).1 = .ok () from hok] at connected
    exact connected
  · intro e he
    have failed : (reconnectAfter w c.settings.reconnectDelay c).1 = .error e := he
    have aligned : Coherent reopened.2 := (reconnectAfter_lines w _).coherent trivial coherent
    rw [failed, quiet (by rw [failed]; nofun)] at recorded
    exact ⟨recorded, aligned.toAligned.down (reconnectAfter_error w failed)⟩
  · intro hok
    rw [show (reconnectAfter w c.settings.reconnectDelay c).1 = .ok () from hok] at recorded
    exact ⟨made, sent, calls, unsent, frames, recorded⟩

-- The transport refuses to open, once when connecting and once when reconnecting.
example : (after Playback.world [.listen .returning, .setSession Playback.session, .connect, .reconnect]
    (create { openings := [.fails (.network "refused"), .fails (.network "down")], now := .earliest }
      { reconnectDelay := .zero } none "" .singleThread)).dispatcher.journal.heard =
    [.network "refused", .network "down"] := by cbv

end Client

end MarketFeed
