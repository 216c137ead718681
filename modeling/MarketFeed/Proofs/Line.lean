import MarketFeed.Proofs.Log
import MarketFeed.Proofs.Walk

/-!
# Steps on a connection

What happens to a client between two changes of its subscriptions is made of few kinds of steps: it
asks the world, lets time pass, renews its session, runs a heartbeat cycle, closes, opens, or sends
a frame. Every operation on the connection walks by these, and none of them touches the registry.
-/

namespace MarketFeed

inductive World.Leads {τ : Type} (w : World τ) (s : τ) : τ → Prop
  | refl : w.Leads s s
  | isOpen {t} : w.Leads s t → w.Leads s (w.isOpen t).2
  | send {t} (frame) : w.Leads s t → w.Leads s (w.send frame t).2
  | disconnect {t} : w.Leads s t → w.Leads s (w.disconnect t)
  | perform {t} (request) : w.Leads s t → w.Leads s (w.perform request t).2
  | now {t} : w.Leads s t → w.Leads s (w.now t).2
  | silentFor {t} : w.Leads s t → w.Leads s (w.silentFor t).2
  | fraction {t} : w.Leads s t → w.Leads s (w.fraction t).2

def Frame.IsHeartbeat (frame : Frame) : Prop := ∃ t, frame = .heartbeat t

/-- Frames about active kinds: to start them for subscribed symbols, or to stop them. -/
inductive Registry.Allows (r : Registry) : Frame → Prop
  | subscribe {kind xs} : r.active kind = true → (∀ x ∈ xs, x ∈ r.symbols) →
      (kind.isAccount = false → xs ≠ []) → r.Allows (.subscribe kind xs)
  | unsubscribe {kind xs} : r.active kind = true → kind.isAccount = false → xs ≠ [] →
      r.Allows (.unsubscribe kind xs)

namespace Client

variable {τ : Type} (w : World τ)

/-- What happens while a client looks or waits. -/
inductive Idle : Client τ → Client τ → Prop
  | ask {α} (q : τ → α × τ) (hq : ∀ s, w.Leads s (q s).2) (c) : Idle c (ask q c).2
  | pass (t : Nat) (c) : Idle c { c with time := t }
  | beat {c : Client τ} {monitor due} (hc : c.heartbeat = some ⟨monitor, .waiting due⟩) :
      Idle c (beat w ⟨monitor, .waiting due⟩ due c).2

/-- A step on the way to an open connection. -/
inductive Link : Client τ → Client τ → Prop
  | idle {c c'} : Idle w c c' → Link c c'
  | hold (session : Session) (c) : Link c (setSession session c).2
  | renew (settings : SessionSettings) (session : Session) (c) :
      Link c (renewSession w settings session c).2
  | close (c) : Link c (teardown w c).2
  | openFor (session : Session) {c : Client τ} (hp : c.phase ≠ .connected)
      (hs : c.session = some session) (ha : session.isActive = true) :
      Link c (openFor w session c).2
  | measure (s : Sample) {c : Client τ}
      (hs : s = .reconnect ∨ s = .subscribedSymbols c.dispatcher.registry.symbols.size) :
      Link c (sample s c).2

inductive LineStep : Client τ → Client τ → Prop
  | link {c c'} : Link w c c' → LineStep c c'
  | count (c) : LineStep c (modifyJournal (·.modifyStatistics (·.countReconnect)) c).2
  | send (frame : Frame) {c : Client τ} (hp : c.phase = .connected)
      (hf : c.dispatcher.registry.Allows frame) : LineStep c (sendReported w frame c).2

/-! ## Sessions -/

theorem renewSession_phase (settings : SessionSettings) (session : Session) (c : Client τ) :
    (renewSession w settings session c).2.phase = c.phase := by
  rw [renewSession_apply]
  cases grant w settings.ttl session.kind c <;> rfl

theorem renewSession_holds {settings : SessionSettings} {session renewed : Session} {c : Client τ}
    (h : (renewSession w settings session c).1 = .ok renewed) :
    (renewSession w settings session c).2.session = some renewed := by
  rw [renewSession_apply] at h ⊢
  cases hr : grant w settings.ttl session.kind c with
  | ok got => rw [hr] at h; cases h; rfl
  | error e => rw [hr] at h; cases h

def Usable (r : Except FeedError (Option Session)) (c : Client τ) : Prop :=
  c.phase ≠ .connected ∧ ∀ s, r = .ok (some s) → c.session = some s ∧ s.isActive = true

theorem usable_of_held {c : Client τ} {session : Session} (hp : c.phase ≠ .connected)
    (hs : c.session = some session) :
    Usable (.ok (if session.isActive then some session else none)) c := by
  refine ⟨hp, fun s hr => ?_⟩
  by_cases ha : session.isActive = true
  · rw [if_pos ha] at hr; cases hr; exact ⟨hs, ha⟩
  · rw [if_neg ha] at hr; cases hr

theorem activeSession_walks :
    Walks (Link w) (fun c => c.phase ≠ .connected) (activeSession w) Usable := by
  unfold activeSession
  refine .get fun c hp => ?_
  cases hs : c.session with
  | none => exact .pure fun c' e => ⟨e ▸ hp, by simp⟩
  | some session =>
    refine .bind (R := fun _ c' => c'.phase ≠ .connected ∧ c'.session = some session)
      (.step (fun c' _ => .idle (.ask _ (fun _ => .now .refl) c')) fun c' e => e ▸ ⟨hp, hs⟩) fun now => ?_
    refine .get fun c₁ h₁ => ?_
    have kept : Walks (Link w) (· = c₁)
        (pure (.ok (if session.isActive then some session else none))) Usable :=
      .pure fun c' e => e ▸ usable_of_held h₁.1 h₁.2
    cases session.isExpired now with
    | false => exact kept
    | true =>
      cases c₁.sessions with
      | none => exact kept
      | some settings =>
        refine .bind (R := fun r c' => c'.phase ≠ .connected ∧ ∀ s, r = .ok s → c'.session = some s)
          (.step (fun c' _ => .renew settings session c') fun c' e => ?_) fun r => ?_
        · rw [renewSession_phase]
          exact ⟨e ▸ h₁.1, fun s => renewSession_holds w⟩
        · cases r with
          | error e => exact .pure fun c' h => ⟨h.1, by simp⟩
          | ok renewed => exact .pure fun c' h => usable_of_held h.1 (h.2 _ rfl)

/-! ## Opening and closing -/

theorem isConnected_idles : Walks (Idle w) (fun _ => True) (isConnected w)
    (fun b c => b = true → c.phase = .connected) := by
  intro c _
  rw [isConnected_apply]
  by_cases hp : c.phase = .connected
  · rw [if_pos hp]
    exact ⟨.single (.ask _ (fun _ => .isOpen .refl) c), fun _ => hp⟩
  · rw [if_neg hp]
    exact ⟨.refl, fun h => nomatch h⟩

theorem teardown_phase (c : Client τ) : (teardown w c).2.phase ≠ .connected := by
  rw [teardown_apply]
  exact fun h => nomatch h

theorem openFor_error {session : Session} {c : Client τ} {e : FeedError}
    (h : (openFor w session c).1 = .error e) : (openFor w session c).2.phase ≠ .connected := by
  rw [openFor_apply] at h ⊢
  rcases hr : w.connect (.ofSession session c.token) c.world with ⟨_ | _, s⟩
  · exact fun h => nomatch h
  · rw [hr] at h; cases h

theorem connectSession_walks : Walks (Link w) (fun c => c.phase ≠ .connected)
    (activeSession w >>= fun
      | .error e => pure (.error e)
      | .ok none => pure (.ok ())
      | .ok (some session) => openFor w session)
    (fun r c => ∀ e, r = .error e → c.phase ≠ .connected) := by
  refine .bind (activeSession_walks w) fun r => ?_
  rcases r with e | (_ | session)
  · exact .pure fun _ h _ _ => h.1
  · exact .pure fun _ _ _ h => nomatch h
  · refine .step (fun c h => ?_) fun c _ e => openFor_error w
    exact .openFor session h.1 (h.2 _ rfl).1 (h.2 _ rfl).2

theorem connect_walks : Walks (Link w) (fun _ => True) (connect w)
    (fun r c => ∀ e, r = .error e → c.phase ≠ .connected) := by
  unfold connect
  refine .get fun c _ => .cond (fun _ => ?_) fun hp =>
    (connectSession_walks w).weaken (fun c' e => e ▸ hp) fun _ _ => id
  refine .bind (((isConnected_idles w).mono fun _ _ => .idle).weaken
    (fun _ _ => trivial) fun _ _ => id) fun b => ?_
  refine .cond (fun _ => .pure fun _ _ _ h => nomatch h) fun _ => ?_
  exact .bind (.step (fun c' _ => .close c') fun c' _ => teardown_phase w c') fun _ =>
    connectSession_walks w

/-! ## Frames -/

theorem sendAll_walks {r : Registry} : ∀ {frames : List Frame}, (∀ f ∈ frames, r.Allows f) →
    Walks (LineStep w) (fun c => c.phase = .connected ∧ c.dispatcher.registry = r)
      (sendAll w frames) (fun _ c => c.phase = .connected ∧ c.dispatcher.registry = r) := by
  intro frames
  induction frames with
  | nil => exact fun _ => .pure fun _ h => h
  | cons frame rest ih =>
    intro hf
    refine .bind (.step (fun c h => ?_) fun c h => ?_) fun _ =>
      ih fun f hm => hf f (List.mem_cons_of_mem _ hm)
    · exact .send frame h.1 (h.2 ▸ hf frame List.mem_cons_self)
    · rw [sendReported_apply]
      refine ⟨h.1, Eq.trans ?_ h.2⟩
      cases (w.send frame c.world).1 <;> rfl

theorem replayFrames_allowed (r : Registry) : ∀ f ∈ r.replayFrames, r.Allows f := by
  intro f hf
  unfold Registry.replayFrames at hf
  obtain ⟨kind, hk, rfl⟩ := List.mem_map.1 hf
  obtain ⟨ha, hs⟩ := List.mem_filter.1 hk
  refine .subscribe (List.mem_filter.1 ha).2 (fun x hx => hx) fun hm => ?_
  rw [hm] at hs
  intro he
  rw [TextSet.isEmpty, he] at hs
  cases hs

theorem restore_walks : Walks (LineStep w) (fun c => c.phase = .connected) (restore w)
    (fun _ _ => True) := by
  unfold restore
  refine .bind (R := fun _ c => c.phase = .connected) (.step (fun c _ => .count c) fun _ h => h)
    fun _ => ?_
  refine .bind (R := fun _ c => c.phase = .connected)
    (.step (fun c _ => .link (.measure .reconnect (.inl rfl))) fun _ h => h) fun _ => ?_
  refine .get fun c h => ?_
  exact (sendAll_walks w (replayFrames_allowed _)).weaken (fun c' e => ⟨e ▸ h, congrArg (·.dispatcher.registry) e⟩)
    fun _ _ _ => trivial

/-! ## Time -/

theorem beats_idles (upTo : Nat) : ∀ n, Walks (Idle w) (fun _ => True) (beats w upTo n)
    (fun _ _ => True) := by
  intro n
  induction n with
  | zero => exact .pure fun _ _ => trivial
  | succ n ih =>
    unfold beats
    refine .get fun c _ => ?_
    rcases hc : c.heartbeat with _ | ⟨monitor, due | _ | _⟩
    · exact .pure fun _ _ => trivial
    · refine .cond (fun _ => ?_) fun _ => .pure fun _ _ => trivial
      exact .bind (.step (fun c' e => .beat (e ▸ hc)) fun _ _ => trivial) fun _ => ih
    · exact .pure fun _ _ => trivial
    · exact .pure fun _ _ => trivial

theorem elapse_idles (upTo : Nat) : Walks (Idle w) (fun _ => True) (elapse w upTo)
    (fun _ _ => True) :=
  .bind (beats_idles w upTo _) fun _ => .step (fun _ _ => .pass _ _) fun _ _ => trivial

theorem sleep_idles (d : Duration) : Walks (Idle w) (fun _ => True) (sleep w d)
    (fun _ _ => True) :=
  .get fun _ _ => (elapse_idles w _).weaken (fun _ _ => trivial) fun _ _ => id

theorem Idle.calls {c c' : Client τ} (s : Idle w c c') :
    c'.dispatcher.registry = c.dispatcher.registry ∧ c'.phase = c.phase ∧
      (c'.calls = c.calls ∨ ∃ t, c'.calls = c.calls ++ [.stall (.heartbeat t)] ∨
        ∃ r, c'.calls = c.calls ++ [.send (.heartbeat t) r]) := by
  cases s with
  | ask => exact ⟨rfl, rfl, .inl rfl⟩
  | pass => exact ⟨rfl, rfl, .inl rfl⟩
  | beat =>
    rw [beat_apply]
    rcases w.isOpen c.world with ⟨_ | _, s⟩
    · exact ⟨rfl, rfl, .inl rfl⟩
    · by_cases hs : w.stalls (w.now s).2 = true
      · dsimp only
        rw [if_pos hs]
        exact ⟨rfl, rfl, .inr ⟨_, .inl rfl⟩⟩
      · dsimp only
        rw [if_neg hs]
        rcases w.send _ _ with ⟨_ | _, s⟩ <;> exact ⟨rfl, rfl, .inr ⟨_, .inr ⟨_, rfl⟩⟩⟩

/-! ## Reconnection -/

theorem renewHeld_walks : Walks (Link w) (fun c => c.phase ≠ .connected) (renewHeld w)
    (fun _ c => c.phase ≠ .connected) := by
  unfold renewHeld
  refine .get fun c hp => .get fun c₁ e₁ => ?_
  subst e₁
  rcases c₁.sessions with _ | settings
  · exact .pure fun c' e => e ▸ hp
  · rcases c₁.session with _ | session
    · exact .pure fun c' e => e ▸ hp
    · refine .bind (R := fun _ c' => c'.phase ≠ .connected)
        (.step (fun c' _ => .renew settings session c') fun c' e => ?_) fun r => ?_
      · rw [renewSession_phase]
        exact e ▸ hp
      · cases r <;> exact .pure fun _ h => h

section
variable {S : Client τ → Client τ → Prop} (hl : ∀ c c', Link w c c' → S c c')
include hl

theorem reopen_walks {R : Client τ → Prop}
    (hr : Walks S (fun c => c.phase = .connected) (restore w) fun _ => R)
    (delay : Duration) : Walks S (fun c => c.phase ≠ .connected) (reopen w delay)
      (fun _ c => c.phase = .connected → R c) := by
  unfold reopen
  refine .optional (R := fun c => c.phase ≠ .connected) (fun _ => ?_) (fun _ _ h => h) ?_
  · exact (((sleep_idles w delay).keeps fun _ _ s h => (s.calls w).2.1 ▸ h).mono
      fun c c' s => hl c c' (.idle s)).weaken (fun _ h => ⟨trivial, h⟩) fun _ _ h => h.2
  refine .bind ((renewHeld_walks w).mono hl) fun r => ?_
  cases r with
  | error e => exact .pure fun c h h' => absurd h' h
  | ok =>
    refine .bind (((connect_walks w).mono hl).weaken (fun _ _ => trivial) fun _ _ => id) fun r => ?_
    cases r with
    | error e => exact .pure fun c h h' => absurd h' (h e rfl)
    | ok =>
      refine .get fun c h => .optional (R := fun c => c.phase = .connected → R c)
        (fun hp => ?_) (fun hp c' e h' => absurd (e ▸ h') hp) (.pure fun _ h => h)
      exact hr.weaken (fun c' e => e ▸ hp) fun _ _ h _ => h

theorem reconnectAfter_walks {R : Client τ → Prop}
    (hr : Walks S (fun c => c.phase = .connected) (restore w) fun _ => R)
    (delay : Duration) : Walks S (fun _ => True) (reconnectAfter w delay)
      (fun _ c => c.phase = .connected → R c) :=
  .bind (.step (fun c _ => hl _ _ (.close c)) fun c _ => teardown_phase w c) fun _ =>
    reopen_walks w hl hr delay

variable {I : Client τ → Prop} (hi : ∀ c c', Idle w c c' → I c → I c')
  (hr : ∀ delay, Walks S I (reconnectAfter w delay) fun _ => I)
include hi hr

theorem attempt_walks : Walks S I (attempt w) fun _ => I := by
  unfold attempt
  refine .bind (hr .zero) fun r => ?_
  cases r with
  | error e => exact .pure fun _ h => h
  | ok =>
    refine .bind (R := fun _ => I) ?_ fun b => ?_
    · exact (((isConnected_idles w).keeps hi).mono fun c c' s => hl c c' (.idle s)).weaken
        (fun _ h => ⟨trivial, h⟩) fun _ _ h => h.2
    · exact .pure fun _ h => h

omit hr in
theorem waitForAttempt_walks (cancellation : Cancellation) (attempt : Nat) (delay : Duration) :
    Walks S I (waitForAttempt w cancellation attempt delay) fun _ => I := by
  have wait : ∀ upTo, Walks S I (elapse w upTo) fun _ => I := fun upTo =>
    (((elapse_idles w upTo).keeps hi).mono fun c c' s => hl c c' (.idle s)).weaken
      (fun _ h => ⟨trivial, h⟩) fun _ _ h => h.2
  unfold waitForAttempt
  refine .get fun c hc => ?_
  have start : ∀ c', c' = c → I c' := fun c' e => e ▸ hc
  cases cancellation with
  | already => exact .pure start
  | never => exact .bind ((wait _).weaken start fun _ _ => id) fun _ => .pure fun _ h => h
  | «at» time =>
    refine .cond (fun _ => ?_) fun _ => ?_
    · exact .bind ((wait _).weaken start fun _ _ => id) fun _ => .pure fun _ h => h
    · exact .bind ((wait _).weaken start fun _ _ => id) fun _ => .pure fun _ h => h
  | during earlier =>
    refine .cond (fun _ => .pure start) fun _ => ?_
    exact .bind ((wait _).weaken start fun _ _ => id) fun _ => .pure fun _ h => h

theorem attempts_walks (cancellation : Cancellation) : ∀ rounds made last,
    Walks S I (attempts w cancellation rounds made last) fun _ => I := by
  intro rounds
  -- Induction on the rounds that are left, for every count of attempts and every last error.
  induction rounds with
  | zero => exact fun _ _ => .pure fun _ h => h
  | succ rounds ih =>
    intro made last
    unfold attempts
    refine .bind (R := fun _ => I) (.step (fun c _ => hl _ _ (.idle (.ask _ (fun _ => .fraction .refl) c)))
      fun c h => hi _ _ (.ask _ (fun _ => .fraction .refl) c) h) fun fraction => ?_
    rcases made.next fraction with ⟨_ | delay | _, made'⟩
    · exact .pure fun _ h => h
    · refine .bind (waitForAttempt_walks w hl hi cancellation _ _) fun go => ?_
      refine .cond (fun _ => ?_) fun _ => .pure fun _ h => h
      refine .bind (attempt_walks w hl hi hr) fun r => ?_
      cases r with
      | none => exact .pure fun _ h => h
      | some e => exact ih _ _
    · exact .pure fun _ h => h

theorem reconnectWithBackoff_walks (cancellation : Cancellation) (rounds : Nat) :
    Walks S I (reconnectWithBackoff w cancellation rounds) fun _ => I :=
  .get fun _ h => (attempts_walks w hl hi hr _ _ _ _).weaken (fun _ e => e ▸ h) fun _ _ => id

end

end Client

end MarketFeed
