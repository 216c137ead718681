import Mathlib
import MarketFeed.Proofs.Step

/-!
# Reported errors

A failure that nobody waits for reaches the journal: it is counted, sampled by its class and handed
to the listener, once each. This goes for every frame that is not sent, whichever operation or
heartbeat sent it, but for the one that a subscription ends with: that failure is the answer of the
subscription and goes nowhere else.
-/

namespace MarketFeed

/-! ## What failed -/

namespace Session

theorem ofBody_error {now now' : Instant} {ttl ttl' : Duration} {body : String} {e : FeedError}
    (h : ofBody now ttl body = .error e) : ofBody now' ttl' body = .error e := by
  unfold ofBody at h ⊢
  cases hj : Json.parse? body with
  | none => rw [hj] at h; exact h
  | some value =>
    rw [hj] at h
    dsimp only at h ⊢
    cases hu : stringMember (description value) "url" with
    | error e => rw [hu] at h; exact h
    | ok url =>
      cases hi : stringMember (description value) "sessionid" with
      | error e => rw [hu, hi] at h; exact h
      | ok id => rw [hu, hi] at h; cases h

theorem ofOutcome_error {now now' : Instant} {ttl ttl' : Duration} {outcome : Outcome}
    {e : FeedError} (h : ofOutcome now ttl outcome = .error e) :
    ofOutcome now' ttl' outcome = .error e := by
  cases outcome with
  | error e => exact h
  | ok r =>
    unfold ofOutcome ofResponse at h ⊢
    by_cases hr : r.isSuccess = true
    · simp only [if_pos hr] at h ⊢
      exact ofBody_error h
    · simp only [if_neg hr] at h ⊢
      exact h

end Session

def Call.failure? : Call → Option FeedError
  | connect _ _ (.error e) => some e
  | send (.heartbeat _) (.error e) => some (heartbeatFailed e)
  | send (.subscription ..) (.error e) => some e
  | request _ outcome =>
    match Session.ofOutcome .earliest .zero outcome with
    | .ok _ => none
    | .error e => some e
  | _ => none

namespace Call

theorem failure?_request {request : Request} {outcome : Outcome} (now : Instant) (ttl : Duration) :
    (Call.request request outcome).failure? =
      match Session.ofOutcome now ttl outcome with
      | .ok _ => none
      | .error e => some e := by
  show (match Session.ofOutcome .earliest .zero outcome with
    | .ok _ => none
    | .error e => some e) = _
  cases h : Session.ofOutcome now ttl outcome with
  | error e => rw [Session.ofOutcome_error h]
  | ok session =>
    cases h' : Session.ofOutcome .earliest .zero outcome with
    | error e => rw [Session.ofOutcome_error h'] at h; cases h
    | ok => rfl

theorem failure?_send {r : Registry} {frame : Frame} (hf : r.Allows frame)
    (result : Except FeedError Unit) :
    (Call.send frame result).failure? =
      match result with
      | .ok _ => none
      | .error e => some e := by
  cases hf <;> cases result <;> rfl

end Call

def Sample.errorLabel? : Sample → Option String
  | error label => some label
  | _ => none

namespace Journal

structure Recorded (j j' : Journal) (errors : List FeedError) : Prop where
  listener : j'.listener = j.listener
  counted : j'.statistics.errors = j.statistics.errors + errors.length
  heard : j'.heard = if j.listener = .absent then j.heard else j.heard ++ errors
  sampled : j'.samples.filterMap Sample.errorLabel? =
    j.samples.filterMap Sample.errorLabel? ++ errors.map FeedError.label

theorem Recorded.refl (j : Journal) : Recorded j j [] := by
  refine ⟨rfl, rfl, ?_, (List.append_nil _).symm⟩
  rw [List.append_nil, ite_self]

theorem Recorded.trans {j j' j'' : Journal} {errors errors' : List FeedError}
    (h : Recorded j j' errors) (h' : Recorded j' j'' errors') :
    Recorded j j'' (errors ++ errors') := by
  refine ⟨h'.listener.trans h.listener, ?_, ?_, ?_⟩
  · rw [h'.counted, h.counted, List.length_append, Nat.add_assoc]
  · rw [h'.heard, h.heard, h.listener]
    by_cases hl : j.listener = .absent
    · rw [if_pos hl, if_pos hl, if_pos hl]
    · rw [if_neg hl, if_neg hl, if_neg hl, List.append_assoc]
  · rw [h'.sampled, h.sampled, List.map_append, List.append_assoc]

theorem recorded_report (j : Journal) (e : FeedError) : Recorded j (j.report e) [e] := by
  unfold report
  by_cases hl : j.listener = .absent
  · rw [if_pos hl]
    refine ⟨rfl, rfl, (if_pos hl).symm, List.filterMap_append⟩
  · rw [if_neg hl]
    refine ⟨rfl, rfl, (if_neg hl).symm, List.filterMap_append⟩

theorem recorded_sample (j : Journal) {s : Sample} (hs : s.errorLabel? = none) :
    Recorded j (j.sample s) [] := by
  refine ⟨rfl, rfl, (Recorded.refl j).heard, ?_⟩
  unfold sample
  rw [List.filterMap_append, List.filterMap_cons, hs]
  rfl

theorem recorded_statistics (j : Journal) {f : Statistics → Statistics}
    (hf : (f j.statistics).errors = j.statistics.errors) : Recorded j (j.modifyStatistics f) [] :=
  ⟨rfl, hf, (Recorded.refl j).heard, (Recorded.refl j).sampled⟩

end Journal

namespace Client

variable {τ : Type} (w : World τ)

def Reports (c c' : Client τ) : Prop :=
  ∃ added, c'.calls = c.calls ++ added ∧
    c.dispatcher.journal.Recorded c'.dispatcher.journal (added.filterMap Call.failure?)

section
variable {w} {c c' c'' : Client τ}

theorem Reports.silent (hc : c'.calls = c.calls)
    (hj : c.dispatcher.journal.Recorded c'.dispatcher.journal []) : Reports c c' :=
  ⟨[], by rw [hc, List.append_nil], hj⟩

theorem Reports.called {call : Call} (hc : c'.calls = c.calls ++ [call])
    (hj : c.dispatcher.journal.Recorded c'.dispatcher.journal call.failure?.toList) :
    Reports c c' := by
  refine ⟨[call], hc, ?_⟩
  rw [List.filterMap_cons]
  cases hf : call.failure? <;> rw [hf] at hj <;> exact hj

theorem Reports.refl (c : Client τ) : Reports c c := .silent rfl (.refl _)

theorem Reports.trans (h : Reports c c') (h' : Reports c' c'') : Reports c c'' := by
  obtain ⟨added, hc, hj⟩ := h
  obtain ⟨added', hc', hj'⟩ := h'
  refine ⟨added ++ added', by rw [hc', hc, List.append_assoc], ?_⟩
  rw [List.filterMap_append]
  exact hj.trans hj'

/-! ## Steps -/

theorem Idle.reports (s : Idle w c c') : Reports c c' := by
  cases s with
  | ask => exact .silent rfl (.refl _)
  | pass => exact .silent rfl (.refl _)
  | beat =>
    rw [beat_apply]
    rcases w.isOpen c.world with ⟨_ | _, s⟩
    · exact .silent rfl (.refl _)
    · by_cases hs : w.stalls (w.now s).2 = true
      · dsimp only
        rw [if_pos hs]
        exact .called rfl (.refl _)
      · dsimp only
        rw [if_neg hs]
        rcases w.send _ _ with ⟨e | _, s⟩
        · exact .called rfl ((Journal.recorded_sample _ rfl).trans (Journal.recorded_report _ _))
        · exact .called rfl (.refl _)

theorem Link.reports (s : Link w c c') : Reports c c' := by
  cases s with
  | idle s => exact s.reports
  | hold => exact .silent rfl (.refl _)
  | renew settings session =>
    rw [renewSession_apply]
    cases hg : grant w settings.ttl session.kind c with
    | ok renewed =>
      refine .called rfl ?_
      rw [Call.failure?_request (w.now c.world).1 settings.ttl, show Session.ofOutcome _ _ _ = _ from hg]
      exact .refl _
    | error e =>
      refine .called rfl ?_
      rw [Call.failure?_request (w.now c.world).1 settings.ttl, show Session.ofOutcome _ _ _ = _ from hg]
      exact Journal.recorded_report _ e
  | close =>
    rw [teardown_apply]
    refine .called rfl ?_
    by_cases hp : c.phase = .disconnected
    · simp only [hp, if_true]
      exact .refl _
    · simp only [hp, if_false]
      exact Journal.recorded_sample _ rfl
  | openFor session =>
    rw [openFor_apply]
    rcases w.connect (.ofSession session c.token) c.world with ⟨e | _, s⟩
    · exact .called rfl (Journal.recorded_report _ e)
    · exact .called rfl ((Journal.recorded_statistics _ rfl).trans (Journal.recorded_sample _ rfl))
  | measure s hs =>
    refine .silent rfl (Journal.recorded_sample _ ?_)
    obtain rfl | rfl := hs <;> rfl

theorem LineStep.reports (s : LineStep w c c') : Reports c c' := by
  cases s with
  | link s => exact s.reports
  | count => exact .silent rfl (Journal.recorded_statistics _ rfl)
  | send frame hp hf =>
    rw [sendReported_apply]
    refine .called rfl ?_
    rw [Call.failure?_send hf]
    cases (w.send frame c.world).1 with
    | ok => exact .refl _
    | error e => exact Journal.recorded_report _ e

/-! ## Operations -/

theorem Setup.reports {S : Client τ → Client τ → Prop} (hS : ∀ c c', S c c' → Reports c c')
    (s : Setup S c c') : Reports c c' := by
  cases s with
  | base s => exact hS _ _ s
  | arrange => exact .silent rfl (.refl _)
  | add => exact .silent rfl (.refl _)

theorem Trim.reports (s : Trim w c c') : Reports c c' := by
  cases s with
  | line s => exact s.reports
  | strike => exact .silent rfl (.refl _)

theorem reports_along {S : Client τ → Client τ → Prop} (hS : ∀ c c', S c c' → Reports c c')
    (path : Relation.ReflTransGen S c c') : Reports c c' :=
  kept_along (I := Reports c) (fun _ _ s h => h.trans (hS _ _ s)) path (.refl c)

/-- Each failure was reported on the way from one client to another, or no frame was sent. -/
def FramesReported (c c' : Client τ) : Prop :=
  Reports c c' ∨ ∃ added, c'.calls = c.calls ++ added ∧ ∀ call ∈ added, call.isSending = false

theorem act_reports {action : Action} (hn : subscribes action = false) (c : Client τ) :
    FramesReported c (act w action c).2 := by
  have along {α : Type} {m : Op τ α} {f : α → Answer} {Q : α → Client τ → Prop}
      (h : Walks (LineStep w) (fun _ => True) m Q) :
      FramesReported c ((m >>= fun a => pure (f a) : Op τ Answer) c).2 :=
    .inl (reports_along (fun _ _ => LineStep.reports) (h c trivial).1)
  have quiet {c' : Client τ} (hc : c'.calls = c.calls) : FramesReported c c' :=
    .inr ⟨[], by rw [hc, List.append_nil], fun _ h => absurd h List.not_mem_nil⟩
  cases action with
  | receive text => exact quiet (receive_calls text c)
  | elapse d => exact along ((sleep_idles w d).mono fun _ _ s => .link (.idle s))
  | createSession kind =>
    show FramesReported c (createSession w kind c).2
    rw [createSession_apply]
    cases c.sessions with
    | none => exact .inl (.refl c)
    | some => exact .inr ⟨_, rfl, fun call hm => List.mem_singleton.1 hm ▸ rfl⟩
  | connect => exact along ((connect_walks w).mono fun _ _ => .link)
  | disconnect => exact .inl (LineStep.link (w := w) (.close c)).reports
  | reconnect =>
    exact along
      (.get fun _ _ => (reconnectAfter_lines w _).weaken (fun _ _ => trivial) fun _ _ h => h)
  | reconnectWithBackoff cancellation rounds =>
    exact along
      (reconnectWithBackoff_walks w (fun _ _ => .link) (fun _ _ _ h => h) (reconnectAfter_lines w)
        cancellation rounds)
  | subscribe => cases hn
  | addSymbols xs =>
    exact .inl (reports_along (fun _ _ s => s.reports fun _ _ => LineStep.reports)
      (addSymbols_walks w xs c trivial).1)
  | removeSymbols xs =>
    exact .inl (reports_along (fun _ _ => Trim.reports) (removeSymbols_walks w xs c trivial).1)
  | _ => exact quiet rfl

/-! ## Subscribing -/

def OnlyHeartbeats (c c' : Client τ) : Prop :=
  ∃ added, c'.calls = c.calls ++ added ∧ ∀ frame r, .send frame r ∈ added → frame.IsHeartbeat

theorem Setup.onlyHeartbeats (s : Setup (Link w) c c') : OnlyHeartbeats c c' := by
  have none : ∀ {c' : Client τ}, c'.calls = c.calls → OnlyHeartbeats c c' := fun hc =>
    ⟨[], by rw [hc, List.append_nil], fun _ _ h => absurd h List.not_mem_nil⟩
  cases s with
  | base s =>
    obtain ⟨hc, -⟩ | ⟨call, hc, -, hs⟩ := s.noted.2
    · exact none hc
    · exact ⟨[call], hc, fun frame r hm => hs frame r (List.mem_singleton.1 hm).symm⟩
  | arrange => exact none rfl
  | add => exact none rfl

theorem OnlyHeartbeats.trans (h : OnlyHeartbeats c c') (h' : OnlyHeartbeats c' c'') :
    OnlyHeartbeats c c'' := by
  obtain ⟨added, hc, hs⟩ := h
  obtain ⟨added', hc', hs'⟩ := h'
  refine ⟨added ++ added', by rw [hc', hc, List.append_assoc], fun frame r hm => ?_⟩
  exact (List.mem_append.1 hm).elim (hs frame r) (hs' frame r)

def EndsUnsent (c c' : Client τ) : Prop :=
  ∃ added kind xs e, c'.calls = c.calls ++ added ++ [.send (.subscribe kind xs) (.error e)]

theorem not_endsUnsent {call : Call} (hc : c'.calls = c.calls ++ [call])
    (h : ∀ kind xs e, call ≠ .send (.subscribe kind xs) (.error e)) (c'' : Client τ) :
    ¬ EndsUnsent c'' c' := by
  rintro ⟨added, kind, xs, e, he⟩
  exact h kind xs e (List.append_singleton_inj.1 (hc.symm.trans he)).2

theorem OnlyHeartbeats.not_endsUnsent (h : OnlyHeartbeats c c') : ¬ EndsUnsent c c' := by
  obtain ⟨added, hc, hs⟩ := h
  rintro ⟨added', kind, xs, e, he⟩
  rw [hc, List.append_assoc] at he
  have hm : .send (.subscribe kind xs) (.error e) ∈ added :=
    List.append_cancel_left he ▸ List.mem_append_right _ List.mem_cons_self
  obtain ⟨t, ht⟩ := hs _ _ hm
  cases ht

theorem subscribe_reports (kind : EventKind) (session : Session) (symbols : List String)
    (handler : Handler) (c : Client τ) :
    let r := subscribe w kind session symbols handler c
    Reports c r.2 ∧ ¬ EndsUnsent c r.2 ∨
      ∃ added xs e, r.2.calls = c.calls ++ added ++ [.send (.subscribe kind xs) (.error e)] ∧
        r.1 = .error e ∧
        c.dispatcher.journal.Recorded r.2.dispatcher.journal (added.filterMap Call.failure?) := by
  intro r
  obtain ⟨c', path, split⟩ := subscribe_splits w kind session symbols handler c
  have reports : Reports c c' :=
    reports_along (fun _ _ s => s.reports fun _ _ => Link.reports) path
  have quiet : OnlyHeartbeats c c' := kept_along (I := OnlyHeartbeats c)
    (fun _ _ s h => h.trans s.onlyHeartbeats) path
    ⟨[], (List.append_nil _).symm, fun _ _ h => absurd h List.not_mem_nil⟩
  obtain ⟨e, he⟩ | ⟨xs, -, -, he⟩ := split
  · rw [show r = _ from he]
    exact .inl ⟨reports, quiet.not_endsUnsent⟩
  -- Up to the frame of the subscription only heartbeats were sent, and failures reported.
  · rw [show r = _ from he, sendSubscription_apply]
    rcases hs : w.send (.subscribe kind xs) c'.world with ⟨e | _, s⟩
    · obtain ⟨added, hc, hj⟩ := reports
      exact .inr ⟨added, xs, e, congrArg (· ++ _) hc, rfl, hj⟩
    · refine .inl ⟨reports.trans (.called rfl (.refl _)), not_endsUnsent rfl ?_ c⟩
      exact fun _ _ _ h => nomatch (Call.send.inj h).2

end

/-! ## Every action -/

theorem not_framesReported {c c' : Client τ} {added : List Call} {kind : EventKind}
    {xs : List String} {e : FeedError}
    (hc : c'.calls = c.calls ++ added ++ [.send (.subscribe kind xs) (.error e)])
    (hj : c.dispatcher.journal.Recorded c'.dispatcher.journal (added.filterMap Call.failure?)) :
    ¬ FramesReported c c' := by
  rintro (⟨added', hc', hj'⟩ | ⟨added', hc', hs⟩)
  · rw [hc, List.append_assoc] at hc'
    rw [← List.append_cancel_left hc', List.filterMap_append] at hj'
    have counted := hj'.counted.symm.trans hj.counted
    rw [List.length_append] at counted
    have one : ([.send (.subscribe kind xs) (.error e)].filterMap Call.failure?).length = 1 := rfl
    omega
  · rw [hc, List.append_assoc] at hc'
    have hm : .send (.subscribe kind xs) (.error e) ∈ added' :=
      List.append_cancel_left hc' ▸ List.mem_append_right _ List.mem_cons_self
    cases hs _ hm

/-- An action leaves a failed send unreported if and only if it subscribes and the frame that it
ends with is not sent. That error is then the answer, and everything else was reported. -/
theorem framesReported_iff (action : Action) (c : Client τ) :
    let c' := (act w action c).2
    (FramesReported c c' ↔ ¬ (subscribes action = true ∧ EndsUnsent c c')) ∧
      (subscribes action = true → EndsUnsent c c' →
        ∃ added kind xs e, c'.calls = c.calls ++ added ++ [.send (.subscribe kind xs) (.error e)] ∧
          (act w action c).1 = .result (.error e) ∧
          c.dispatcher.journal.Recorded c'.dispatcher.journal (added.filterMap Call.failure?)) := by
  intro c'
  cases hn : subscribes action with
  | false => exact ⟨iff_of_true (act_reports hn c) nofun, nofun⟩
  | true =>
    cases action with
    | subscribe kind session symbols handler =>
      obtain ⟨reports, sent⟩ | ⟨added, xs, e, hc, ha, hj⟩ :=
        subscribe_reports (w := w) kind session symbols handler c
      · exact ⟨iff_of_true (.inl reports) fun h => sent h.2, fun _ h => absurd h sent⟩
      · refine ⟨iff_of_false (not_framesReported hc hj) fun h => ?_, fun _ _ => ?_⟩
        · exact h ⟨rfl, added, kind, xs, e, hc⟩
        · exact ⟨added, kind, xs, e, hc, congrArg Answer.result ha, hj⟩
    | _ => cases hn

def unsent : List Action := [.listen .returning, Playback.subscribe .trade ["SPY"]]

theorem unsent_subscription_unreported :
    (after Playback.world unsent (Playback.client (.fails (.network "down")))).calls.filterMap
      Call.failure? = [.network "down"] ∧
    (after Playback.world unsent
      (Playback.client (.fails (.network "down")))).dispatcher.journal.statistics.errors = 0 ∧
    (after Playback.world unsent (Playback.client (.fails (.network "down")))).dispatcher.journal.heard =
      [] :=
  ⟨by cbv, by cbv, by cbv⟩

end Client

end MarketFeed
