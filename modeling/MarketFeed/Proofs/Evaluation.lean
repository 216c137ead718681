import MarketFeed.Client.Action

/-!
# What small operations come to

Each small operation of a client, as one equation between the client before and after it. Proofs
about larger operations use these and open nothing below them.
-/

namespace MarketFeed.Client

variable {τ α β : Type} (w : World τ)

theorem bind_apply (m : Op τ α) (f : α → Op τ β) (c : Client τ) :
    (m >>= f) c = f (m c).1 (m c).2 := rfl

theorem get_apply (c : Client τ) : (get : Op τ (Client τ)) c = (c, c) := rfl

theorem modify_apply (f : Client τ → Client τ) (c : Client τ) :
    (modify f : Op τ Unit) c = (⟨⟩, f c) := rfl

theorem ask_apply (q : τ → α × τ) (c : Client τ) :
    ask q c = ((q c.world).1, { c with world := (q c.world).2 }) := rfl

/-! ## Sessions -/

def grant (ttl : Duration) (kind : SessionKind) (c : Client τ) : Except FeedError Session :=
  Session.ofOutcome (w.now c.world).1 ttl (w.perform kind.request (w.now c.world).2).1

def requested (kind : SessionKind) (c : Client τ) : Client τ :=
  { c with
    world := (w.perform kind.request (w.now c.world).2).2
    calls := c.calls ++ [.request kind.request (w.perform kind.request (w.now c.world).2).1] }

theorem create_apply (settings : SessionSettings) (kind : SessionKind) (c : Client τ) :
    settings.create (service w) (w.now c.world).1 kind { c with world := (w.now c.world).2 } =
      (grant w settings.ttl kind c, requested w kind c) := rfl

theorem renewSession_apply (settings : SessionSettings) (session : Session) (c : Client τ) :
    renewSession w settings session c =
      match grant w settings.ttl session.kind c with
      | .ok renewed =>
        (.ok renewed, { requested w session.kind c with session := some renewed })
      | .error e => (.error e,
          { requested w session.kind c with
            dispatcher := c.dispatcher.modifyJournal (·.report e) }) := by
  unfold renewSession SessionSettings.renew
  simp only [bind_apply, ask_apply, create_apply]
  cases grant w settings.ttl session.kind c <;> rfl

theorem createSession_apply (kind : SessionKind) (c : Client τ) :
    createSession w kind c =
      match c.sessions with
      | none => (.error noSessionManager, c)
      | some settings => (grant w settings.ttl kind c, requested w kind c) := by
  unfold createSession
  rw [bind_apply, get_apply]
  cases c.sessions <;> rfl

theorem receive_calls (text : String) (c : Client τ) : (receive text c).2.calls = c.calls := by
  unfold receive
  split <;> rfl

/-! ## Connection -/

theorem isConnected_apply (c : Client τ) :
    isConnected w c =
      if c.phase = .connected then
        ((w.isOpen c.world).1 && c.isBeating, { c with world := (w.isOpen c.world).2 })
      else (false, c) := by
  unfold isConnected
  rw [bind_apply, get_apply]
  by_cases h : c.phase = .connected
  · rw [if_pos h, if_pos h]; rfl
  · rw [if_neg h, if_neg h]; rfl

theorem isConnected_iff (c : Client τ) : (isConnected w c).1 = true ↔
    c.phase = .connected ∧ (w.isOpen c.world).1 = true ∧ c.isBeating = true := by
  rw [isConnected_apply]
  by_cases h : c.phase = .connected
  · rw [if_pos h, Bool.and_eq_true, and_iff_right h]
  · rw [if_neg h]
    exact iff_of_false nofun fun h' => h h'.1

theorem isConnected_world (c : Client τ) : ∃ s, (isConnected w c).2 = { c with world := s } := by
  rw [isConnected_apply]
  by_cases h : c.phase = .connected
  · rw [if_pos h]; exact ⟨_, rfl⟩
  · rw [if_neg h]; exact ⟨_, rfl⟩

theorem teardown_apply (c : Client τ) :
    (teardown w c).2 =
      { c with
        world := w.disconnect c.world
        dispatcher := if c.phase = .disconnected then c.dispatcher
          else c.dispatcher.sample (.connected false)
        phase := .disconnected, heartbeat := none, hasId := false, receiving := false
        calls := c.calls ++ [.disconnect] } := by
  unfold teardown
  rw [bind_apply, get_apply]
  by_cases h : c.phase = .disconnected
  · simp only [h]; rfl
  · simp only [h, ne_eq, not_false_eq_true, if_true, if_false]; rfl

theorem openFor_apply (session : Session) (c : Client τ) :
    openFor w session c =
      match w.connect (.ofSession session c.token) c.world with
      | (.ok _, s) => (.ok (), { c with
          world := s, phase := .connected, receiving := true, hasId := true, wasOpened := true
          dispatcher := (c.dispatcher.resetDuplicates.modifyJournal
            (·.modifyStatistics (·.markStarted))).sample (.connected true)
          heartbeat := some (.start (.ofStream c.settings) c.time)
          calls := c.calls ++ [.connect c.session (.ofSession session c.token) (.ok ())] })
      | (.error e, s) => (.error e, { c with
          world := s, phase := .disconnected, receiving := true
          dispatcher := c.dispatcher.modifyJournal (·.report e)
          calls := c.calls ++ [.connect c.session (.ofSession session c.token) (.error e)] }) := by
  unfold openFor openTransport
  simp only [bind_apply, get_apply, modify_apply]
  rcases h : w.connect (.ofSession session c.token) c.world with ⟨r, s⟩
  cases r with
  | ok => simp only [ask, h]; rfl
  | error e => simp only [ask, h]; rfl

/-! ## Frames -/

theorem sendReported_apply (frame : Frame) (c : Client τ) :
    (sendReported w frame c).2 =
      { c with
        world := (w.send frame c.world).2
        dispatcher := match (w.send frame c.world).1 with
          | .ok _ => c.dispatcher
          | .error e => c.dispatcher.modifyJournal (·.report e)
        calls := c.calls ++ [.send frame (w.send frame c.world).1] } := by
  unfold sendReported sendFrame
  rcases h : w.send frame c.world with ⟨r, s⟩
  simp only [bind_apply, ask, h]
  cases r <;> rfl

theorem sendAll_calls (frames : List Frame) (c : Client τ) :
    ∃ sent : List (Frame × Except FeedError Unit), sent.map Prod.fst = frames ∧
      (sendAll w frames c).2.calls = c.calls ++ sent.map fun s => .send s.1 s.2 := by
  induction frames generalizing c with
  | nil => exact ⟨[], rfl, (List.append_nil _).symm⟩
  | cons frame rest ih =>
    obtain ⟨sent, hf, hc⟩ := ih (sendReported w frame c).2
    refine ⟨(frame, (w.send frame c.world).1) :: sent, congrArg _ hf, hc.trans ?_⟩
    rw [sendReported_apply, List.append_assoc]
    rfl

theorem sendAll_registry (frames : List Frame) (c : Client τ) :
    (sendAll w frames c).2.dispatcher.registry = c.dispatcher.registry := by
  induction frames generalizing c with
  | nil => rfl
  | cons frame rest ih =>
    refine (ih (sendReported w frame c).2).trans ?_
    rw [sendReported_apply]
    cases (w.send frame c.world).1 <;> rfl

theorem sendSubscription_apply (kind : EventKind) (xs : List String) (c : Client τ) :
    sendSubscription w kind xs c =
      match w.send (.subscribe kind xs) c.world with
      | (.ok _, s) => (.ok (), { c with
          world := s
          dispatcher := { c.dispatcher with registry := c.dispatcher.registry.activate kind }
          calls := c.calls ++ [.send (.subscribe kind xs) (.ok ())] })
      | (.error e, s) => (.error e, { c with
          world := s, calls := c.calls ++ [.send (.subscribe kind xs) (.error e)] }) := by
  unfold sendSubscription sendFrame
  rcases h : w.send (.subscribe kind xs) c.world with ⟨r, s⟩
  simp only [bind_apply, ask, h]
  cases r <;> rfl

theorem sendForMarketKinds_apply (xs : List String) (frame : EventKind → List String → Frame)
    (c : Client τ) : (sendForMarketKinds w xs frame c).2 =
      if xs = [] then c
      else if (isConnected w c).1 = true then
        (sendAll w (c.dispatcher.registry.activeMarketKinds.map fun k => frame k xs)
          (isConnected w c).2).2
      else (isConnected w c).2 := by
  have same : (isConnected w c).2.dispatcher.registry = c.dispatcher.registry := by
    obtain ⟨s, hs⟩ := isConnected_world w c
    rw [hs]
  unfold sendForMarketKinds
  cases xs with
  | nil => rfl
  | cons x xs =>
    rw [if_neg (List.cons_ne_nil x xs), if_neg (by simp), bind_apply]
    cases hb : (isConnected w c).1 with
    | false => rfl
    | true => rw [if_pos rfl, if_pos rfl, ← same]; rfl

theorem sendForMarketKinds_calls (xs : List String) (frame : EventKind → List String → Frame)
    (c : Client τ) :
    ∃ sent : List (Frame × Except FeedError Unit),
      sent.map Prod.fst = (if xs ≠ [] ∧ (isConnected w c).1 = true then
        c.dispatcher.registry.activeMarketKinds.map fun k => frame k xs else []) ∧
      (sendForMarketKinds w xs frame c).2.calls =
        c.calls ++ sent.map fun s => .send s.1 s.2 := by
  have same : (isConnected w c).2.calls = c.calls := by
    obtain ⟨s, hs⟩ := isConnected_world w c
    rw [hs]
  rw [sendForMarketKinds_apply]
  by_cases hx : xs = []
  · rw [if_pos hx, if_neg fun h => h.1 hx]
    exact ⟨[], rfl, (List.append_nil _).symm⟩
  rw [if_neg hx]
  by_cases hb : (isConnected w c).1 = true
  · rw [if_pos hb, if_pos ⟨hx, hb⟩, ← same]
    exact sendAll_calls w _ (isConnected w c).2
  · rw [if_neg hb, if_neg fun h => hb h.2, same]
    exact ⟨[], rfl, (List.append_nil _).symm⟩

theorem sendForMarketKinds_registry (xs : List String) (frame : EventKind → List String → Frame)
    (c : Client τ) :
    (sendForMarketKinds w xs frame c).2.dispatcher.registry = c.dispatcher.registry := by
  obtain ⟨s, hs⟩ := isConnected_world w c
  rw [sendForMarketKinds_apply]
  split
  · rfl
  · split
    · rw [sendAll_registry, hs]
    · rw [hs]

theorem beat_apply (heartbeat : Heartbeat) (due : Nat) (c : Client τ) :
    (beat w heartbeat due c).2 =
      let time := Nat.max c.time due
      match w.isOpen c.world with
      | (false, s) =>
        { c with world := s, time, heartbeat := some (heartbeat.advance time .closed) }
      | (true, s) =>
        let frame := Frame.heartbeat (w.now s).1.millis
        let s := (w.now s).2
        if w.stalls s then
          { c with
            world := s, time, heartbeat := some { heartbeat with state := .stalled }
            calls := c.calls ++ [.stall frame] }
        else match w.send frame s with
          | (.ok _, s) =>
            { c with
              world := s, time, heartbeat := some (heartbeat.advance time .sent)
              calls := c.calls ++ [.send frame (.ok ())] }
          | (.error e, s) =>
            { c with
              world := (w.silentFor s).2, time
              heartbeat := some (heartbeat.advance time (.failed e (w.silentFor s).1))
              dispatcher := c.dispatcher.modifyJournal (·.cycle (.failed e (w.silentFor s).1))
              calls := c.calls ++ [.send frame (.error e)] } := by
  unfold beat
  rcases ho : w.isOpen c.world with ⟨b, s⟩
  simp only [bind_apply, modify_apply, ask_apply, ho]
  cases b with
  | false => rfl
  | true =>
    simp only [↓reduceIte, bind_apply, get_apply, ask_apply]
    by_cases hs : w.stalls (w.now s).2 = true
    · simp only [hs, ↓reduceIte]; rfl
    · rcases hf : w.send (.heartbeat (w.now s).1.millis) (w.now s).2 with ⟨r, s'⟩
      simp only [hs, Bool.false_eq_true, ↓reduceIte]
      simp only [bind_apply, sendFrame, ask_apply, hf]
      cases r <;> rfl

/-! ## Subscribing -/

theorem ensureConnected_apply (c : Client τ) :
    ensureConnected w c =
      if (isConnected w c).1 = true then (.ok (), (isConnected w c).2)
      else match connect w (isConnected w c).2 with
        | (.error e, c') => (.error e, c')
        | (.ok _, c') =>
          (if (isConnected w c').1 = true then .ok () else .error notEstablished,
            (isConnected w c').2) := by
  unfold ensureConnected
  rw [bind_apply]
  cases (isConnected w c).1 with
  | true => rfl
  | false =>
    rw [if_neg nofun, if_neg nofun, bind_apply]
    rcases connect w (isConnected w c).2 with ⟨_ | _, c'⟩ <;> rfl

theorem subscribe_apply (kind : EventKind) (session : Session) (symbols : List String)
    (handler : Handler) (c : Client τ) :
    subscribe w kind session symbols handler c =
      if session.isActive = true then
        match subscriptionSymbols kind symbols with
        | .error e => (.error e, c)
        | .ok xs =>
          match ensureConnected w (prepareSubscription kind session xs handler c).2 with
          | (.error e, c') => (.error e, c')
          | (.ok _, c') => sendSubscription w kind xs c'
      else (.error sessionNotActive, c) := by
  unfold subscribe
  cases session.isActive with
  | false => rfl
  | true =>
    cases subscriptionSymbols kind symbols with
    | error e => rfl
    | ok xs =>
      show (prepareSubscription kind session xs handler >>= _) c = _
      simp only [bind_apply]
      rcases ensureConnected w (prepareSubscription kind session xs handler c).2 with ⟨_ | _, c'⟩ <;> rfl

end MarketFeed.Client
