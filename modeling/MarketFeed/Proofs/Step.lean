import MarketFeed.Client.Playback
import MarketFeed.Proofs.Line

/-!
# Steps of a run

A run of a client walks by the steps of its connection and by a few more, which change the session
service's log, the settings, the journal or the registry. Removing symbols is one step: the registry
forgets them before the frames about that have been sent.
-/

namespace MarketFeed.Client

variable {τ : Type} (w : World τ)

/-- A step of a sort, or one that extends or arranges the registry. -/
inductive Setup (S : Client τ → Client τ → Prop) : Client τ → Client τ → Prop
  | base {c c'} : S c c' → Setup S c c'
  | arrange {f : Registry → Registry} (hf : ∀ r, (f r).symbols = r.symbols ∧ (f r).active = r.active)
      (c) : Setup S c (modifyRegistry f c).2
  | add (xs : List String) (c) : Setup S c (withRegistry (·.addSymbols xs) c).2

inductive Trim : Client τ → Client τ → Prop
  | line {c c'} : LineStep w c c' → Trim c c'
  | strike (xs : List String) (c) : Trim c (withRegistry (·.removeSymbols xs) c).2

inductive Plain : Client τ → Client τ → Prop
  | setup {c c'} : Setup (LineStep w) c c' → Plain c c'
  | create (kind : SessionKind) (c) : Plain c (createSession w kind c).2
  | receive (text : String) (c) : Plain c (receive text c).2
  | configure (settings : StreamSettings) (c) : Plain c { c with settings }
  | record {f : Journal → Journal} (hf : ∀ j, (f j).samples = j.samples) (c) :
      Plain c (modifyJournal f c).2
  | remove (xs : List String) (c) : Plain c (removeSymbols w xs c).2

inductive Step : Client τ → Client τ → Prop
  | plain {c c'} : Plain w c c' → Step c c'
  | subscribe (kind : EventKind) (xs : List String) {c : Client τ} (hp : c.phase = .connected)
      (hx : ∀ x ∈ xs, x ∈ c.dispatcher.registry.symbols) (hm : kind.isAccount = false → xs ≠ []) :
      Step c (sendSubscription w kind xs c).2

theorem Setup.mono {S S' : Client τ → Client τ → Prop} (hS : ∀ c c', S c c' → S' c c')
    {c c' : Client τ} (s : Setup S c c') : Setup S' c c' := by
  cases s with
  | base s => exact .base (hS _ _ s)
  | arrange hf => exact .arrange hf c
  | add xs => exact .add xs c

/-! ## What a step leaves -/

/-- A step that notes nothing leaves the connection as it is. One that notes a call connects only by
an opening, and sends certain frames only. -/
def Noted (F : Frame → Prop) (c c' : Client τ) : Prop :=
  c'.calls = c.calls ∧ c'.phase = c.phase ∨
    ∃ call, c'.calls = c.calls ++ [call] ∧
      (c'.phase = .connected → call.isOpening = true ∨ c.phase = .connected) ∧
      ∀ frame r, call = .send frame r → F frame

section
variable {w} {c c' : Client τ}

theorem Idle.noted (s : Idle w c c') :
    c'.dispatcher.registry = c.dispatcher.registry ∧ Noted Frame.IsHeartbeat c c' := by
  obtain ⟨hr, hp, hc | ⟨t, hc | ⟨r, hc⟩⟩⟩ := s.calls
  · exact ⟨hr, .inl ⟨hc, hp⟩⟩
  · exact ⟨hr, .inr ⟨_, hc, fun h => .inr (hp ▸ h), fun _ _ e => by cases e⟩⟩
  · exact ⟨hr, .inr ⟨_, hc, fun h => .inr (hp ▸ h), fun _ _ e => by cases e; exact ⟨t, rfl⟩⟩⟩

theorem Link.noted (s : Link w c c') :
    c'.dispatcher.registry = c.dispatcher.registry ∧ Noted Frame.IsHeartbeat c c' := by
  cases s with
  | idle s => exact s.noted
  | hold => exact ⟨rfl, .inl ⟨rfl, rfl⟩⟩
  | renew settings session =>
    rw [renewSession_apply]
    cases grant w settings.ttl session.kind c <;>
      exact ⟨rfl, .inr ⟨_, rfl, .inr, fun _ _ e => by cases e⟩⟩
  | close =>
    rw [teardown_apply]
    refine ⟨?_, .inr ⟨_, rfl, nofun, fun _ _ e => by cases e⟩⟩
    by_cases hp : c.phase = .disconnected
    · simp only [hp, if_true]
    · simp only [hp, if_false]; rfl
  | openFor session =>
    rw [openFor_apply]
    rcases w.connect (.ofSession session c.token) c.world with ⟨_ | _, s⟩
    · exact ⟨rfl, .inr ⟨_, rfl, nofun, fun _ _ e => by cases e⟩⟩
    · exact ⟨rfl, .inr ⟨_, rfl, fun _ => .inl rfl, fun _ _ e => by cases e⟩⟩
  | measure => exact ⟨rfl, .inl ⟨rfl, rfl⟩⟩

theorem Noted.mono {F F' : Frame → Prop} (h : Noted F c c') (hF : ∀ frame, F frame → F' frame) :
    Noted F' c c' :=
  h.imp id fun ⟨call, hc, hp, hs⟩ => ⟨call, hc, hp, fun frame r e => hF frame (hs frame r e)⟩

theorem LineStep.noted (s : LineStep w c c') :
    c'.dispatcher.registry = c.dispatcher.registry ∧
      Noted (fun frame => frame.IsHeartbeat ∨ c.dispatcher.registry.Allows frame) c c' := by
  cases s with
  | link s => exact ⟨s.noted.1, s.noted.2.mono fun _ => .inl⟩
  | count => exact ⟨rfl, .inl ⟨rfl, rfl⟩⟩
  | send frame hp hf =>
    rw [sendReported_apply]
    refine ⟨?_, .inr ⟨_, rfl, .inr, fun _ _ e => by cases e; exact .inr hf⟩⟩
    cases (w.send frame c.world).1 <;> rfl

theorem Link.registry (s : Link w c c') : c'.dispatcher.registry = c.dispatcher.registry :=
  s.noted.1

theorem LineStep.registry (s : LineStep w c c') :
    c'.dispatcher.registry = c.dispatcher.registry :=
  s.noted.1

theorem Noted.grows {F : Frame → Prop} (h : Noted F c c') : c.calls <+: c'.calls := by
  obtain ⟨hc, -⟩ | ⟨call, hc, -⟩ := h
  · exact hc ▸ List.prefix_refl _
  · exact ⟨_, hc.symm⟩

end

theorem sampleSymbols_walks : Walks (Link w) (fun _ => True) sampleSymbols (fun _ _ => True) :=
  .get fun _ _ => .step (fun _ e => .measure (.subscribedSymbols _) (.inr (e ▸ rfl)))
    fun _ _ => trivial

/-! ## Subscribing -/

theorem ensureConnected_walks : Walks (Link w) (fun _ => True) (ensureConnected w)
    (fun r c => r = .ok () → c.phase = .connected) := by
  have look : Walks (Link w) (fun _ => True) (isConnected w)
      (fun b c => b = true → c.phase = .connected) :=
    (isConnected_idles w).mono fun _ _ => .idle
  unfold ensureConnected
  refine .bind look fun b => .cond (fun hb => .pure fun c h _ => h hb) fun _ => ?_
  refine .bind ((connect_walks w).weaken (fun _ _ => trivial) fun _ _ => id) fun r => ?_
  cases r with
  | error e => exact .pure fun _ _ h => nomatch h
  | ok =>
    refine .bind (look.weaken (fun _ _ => trivial) fun _ _ => id) fun b => .pure fun c h hr => h ?_
    cases b with
    | true => rfl
    | false => cases hr

theorem subscriptionSymbols_ok {kind : EventKind} {symbols xs : List String}
    (h : subscriptionSymbols kind symbols = .ok xs) :
    (∀ x ∈ xs, x ≠ "") ∧ (kind.isAccount = false → xs ≠ []) := by
  unfold subscriptionSymbols at h
  by_cases ha : kind.isAccount = true
  · rw [if_pos ha] at h
    cases h
    exact ⟨fun x hx => absurd hx List.not_mem_nil, fun hm => absurd ha (hm ▸ nofun)⟩
  · rw [if_neg ha] at h
    cases he : (symbols.filter (· ≠ "")).isEmpty with
    | true => simp only [he] at h; cases h
    | false =>
      simp only [he] at h
      cases h
      refine ⟨fun x hx => by simpa using (List.mem_filter.1 hx).2, fun _ e => ?_⟩
      rw [e] at he
      cases he

def Ready (kind : EventKind) (xs : List String) (c : Client τ) : Prop :=
  (∀ x ∈ xs, x ∈ c.dispatcher.registry.symbols) ∧ (kind.isAccount = false → xs ≠ [])

theorem Link.ready {kind : EventKind} {xs : List String} {c c' : Client τ} (s : Link w c c')
    (h : Ready kind xs c) : Ready kind xs c' :=
  ⟨s.registry ▸ h.1, h.2⟩

theorem prepareSubscription_walks {kind : EventKind} {symbols xs : List String}
    (h : subscriptionSymbols kind symbols = .ok xs) (session : Session) (handler : Handler) :
    Walks (Setup (Link w)) (fun _ => True) (prepareSubscription kind session xs handler)
      (fun _ => Ready kind xs) := by
  obtain ⟨hn, hm⟩ := subscriptionSymbols_ok h
  unfold prepareSubscription
  refine .bind (R := fun _ _ => True)
    (.step (fun c _ => .base (.hold session c)) fun _ _ => trivial) fun _ => ?_
  refine .bind (R := fun _ _ => True)
    (.step (fun c _ => .arrange (f := (·.setHandler kind (some handler))) (fun _ => ⟨rfl, rfl⟩) c)
      fun _ _ => trivial) fun _ => ?_
  refine .bind (R := fun _ => Ready kind xs) (.step (fun c _ => .add xs c) fun c _ => ?_) fun _ => ?_
  · exact ⟨fun x hx => TextSet.mem_addAll.2 (.inr ⟨hx, hn x hx⟩), hm⟩
  · exact (((sampleSymbols_walks w).keeps fun _ _ => Link.ready w).mono fun _ _ => .base).weaken
      (fun _ h => ⟨trivial, h⟩) fun _ _ h => h.2

theorem subscribe_splits (kind : EventKind) (session : Session) (symbols : List String)
    (handler : Handler) (c : Client τ) : ∃ c', Relation.ReflTransGen (Setup (Link w)) c c' ∧
      ((∃ e, subscribe w kind session symbols handler c = (.error e, c')) ∨
        ∃ xs, c'.phase = .connected ∧ Ready kind xs c' ∧
          subscribe w kind session symbols handler c = sendSubscription w kind xs c') := by
  rw [subscribe_apply]
  by_cases ha : session.isActive = true
  · rw [if_pos ha]
    cases hx : subscriptionSymbols kind symbols with
    | error e => exact ⟨c, .refl, .inl ⟨e, rfl⟩⟩
    | ok xs =>
      obtain ⟨first, ready⟩ := prepareSubscription_walks w hx session handler c trivial
      obtain ⟨rest, open', ready⟩ :=
        (ensureConnected_walks w).keeps (fun _ _ => Link.ready w) _ ⟨trivial, ready⟩
      have path := first.trans (Relation.ReflTransGen.mono (fun _ _ => .base) _ _ rest)
      refine ⟨_, path, ?_⟩
      dsimp only
      rcases hr : ensureConnected w _ with ⟨e | _, c'⟩
      · exact .inl ⟨e, rfl⟩
      · rw [hr] at open' ready
        exact .inr ⟨xs, open' rfl, ready, rfl⟩
  · rw [if_neg ha]
    exact ⟨c, .refl, .inl ⟨_, rfl⟩⟩

theorem subscribe_walks (kind : EventKind) (session : Session) (symbols : List String)
    (handler : Handler) : Walks (Step w) (fun _ => True)
      (subscribe w kind session symbols handler) (fun _ _ => True) := by
  intro c _
  obtain ⟨c', path, ⟨e, h⟩ | ⟨xs, hp, hr, h⟩⟩ := subscribe_splits w kind session symbols handler c
  · rw [h]
    exact ⟨Relation.ReflTransGen.mono (fun _ _ s => .plain (.setup (s.mono fun _ _ => .link))) _ _ path, trivial⟩
  · rw [h]
    exact ⟨.tail (Relation.ReflTransGen.mono (fun _ _ s => .plain (.setup (s.mono fun _ _ => .link))) _ _ path)
      (.subscribe kind xs hp hr.1 hr.2), trivial⟩

/-! ## Changing symbols -/

def Covers (xs : List String) (frame : EventKind → List String → Frame) (c : Client τ) : Prop :=
  ∀ kind, c.dispatcher.registry.active kind = true → kind.isAccount = false → xs ≠ [] →
    c.dispatcher.registry.Allows (frame kind xs)

theorem LineStep.covers (xs : List String) (frame : EventKind → List String → Frame)
    {c c' : Client τ} (s : LineStep w c c') (h : Covers xs frame c) : Covers xs frame c' := by
  unfold Covers
  rw [s.registry]
  exact h

theorem sendForMarketKinds_walks {xs : List String} {frame : EventKind → List String → Frame} :
    Walks (LineStep w) (Covers xs frame) (sendForMarketKinds w xs frame) (fun _ _ => True) := by
  unfold sendForMarketKinds
  refine .cond (fun _ => .pure fun _ _ => trivial) fun hx => ?_
  have look := ((isConnected_idles w).mono fun _ _ s => LineStep.link (.idle s)).keeps
    fun _ _ => LineStep.covers w xs frame
  refine .bind (look.weaken (fun _ h => ⟨trivial, h⟩) fun _ _ => id) fun b => ?_
  refine .cond (fun hb => ?_) fun _ => .pure fun _ _ => trivial
  refine .get fun c h => (sendAll_walks w (r := c.dispatcher.registry) fun f hf => ?_).weaken
    (fun c' e => ⟨e ▸ h.1 hb, congrArg (·.dispatcher.registry) e⟩) fun _ _ _ => trivial
  obtain ⟨kind, hk, rfl⟩ := List.mem_map.1 hf
  obtain ⟨ha, hm⟩ := Registry.mem_activeMarketKinds.1 hk
  refine h.2 kind ha hm fun e => hx ?_
  rw [e]; rfl

theorem announce_walks {xs : List String} {frame : EventKind → List String → Frame} :
    Walks (LineStep w) (Covers xs frame)
      (do sampleSymbols; sendForMarketKinds w xs frame; return xs) (fun _ _ => True) := by
  have measured := ((sampleSymbols_walks w).mono fun _ _ => LineStep.link).keeps
    fun _ _ => LineStep.covers w xs frame
  refine .bind (measured.weaken (fun _ h => ⟨trivial, h⟩) fun _ _ h => h.2) fun _ => ?_
  exact .bind (sendForMarketKinds_walks w) fun _ => .pure fun _ h => h

theorem addSymbols_walks (xs : List String) :
    Walks (Setup (LineStep w)) (fun _ => True) (addSymbols w xs) (fun _ _ => True) := by
  unfold addSymbols
  refine .bind (R := fun added => Covers added .subscribe) (.step (fun c _ => .add xs c) ?_) ?_
  · exact fun c _ kind ha hm hx => .subscribe ha (fun x hx => (TextSet.mem_added.1 hx).1) fun _ => hx
  · intro added
    exact (announce_walks w).mono fun _ _ => .base

theorem removeSymbols_walks (xs : List String) :
    Walks (Trim w) (fun _ => True) (removeSymbols w xs) (fun _ _ => True) := by
  unfold removeSymbols
  refine .bind (R := fun removed => Covers removed .unsubscribe) (.step (fun c _ => .strike xs c) ?_) ?_
  · exact fun c _ kind ha hm hx => .unsubscribe ha hm hx
  · intro removed
    exact (announce_walks w).mono fun _ _ => .line

/-! ## The log of a step -/

theorem sendSubscription_calls (kind : EventKind) (xs : List String) (c : Client τ) :
    (sendSubscription w kind xs c).2.calls =
      c.calls ++ [.send (.subscribe kind xs) (sendSubscription w kind xs c).1] := by
  rw [sendSubscription_apply]
  rcases w.send (.subscribe kind xs) c.world with ⟨_ | _, s⟩ <;> rfl

def Notes (c c' : Client τ) : Prop :=
  c'.dispatcher.registry.active = c.dispatcher.registry.active ∧ Noted (fun _ => True) c c'

section
variable {w} {c c' : Client τ}

theorem LineStep.notes (s : LineStep w c c') : Notes c c' :=
  ⟨congrArg Registry.active s.registry, s.noted.2.mono fun _ _ => trivial⟩

theorem Setup.notes (s : Setup (LineStep w) c c') : Notes c c' := by
  cases s with
  | base s => exact s.notes
  | arrange hf => exact ⟨(hf _).2, .inl ⟨rfl, rfl⟩⟩
  | add => exact ⟨rfl, .inl ⟨rfl, rfl⟩⟩

theorem Trim.notes (s : Trim w c c') : Notes c c' := by
  cases s with
  | line s => exact s.notes
  | strike => exact ⟨rfl, .inl ⟨rfl, rfl⟩⟩

theorem Plain.notes (s : Plain w c c') : Relation.ReflTransGen Notes c c' := by
  cases s with
  | setup s => exact .single s.notes
  | create kind =>
    rw [createSession_apply]
    cases c.sessions with
    | none => exact .refl
    | some => exact .single ⟨rfl, .inr ⟨_, rfl, .inr, fun _ _ _ => trivial⟩⟩
  | receive =>
    unfold Client.receive
    split
    · refine .single ⟨?_, .inl ⟨rfl, rfl⟩⟩
      exact congrArg Registry.active (Dispatcher.dispatch_registry c.dispatcher _ _)
    · exact .refl
  | configure => exact .single ⟨rfl, .inl ⟨rfl, rfl⟩⟩
  | record => exact .single ⟨rfl, .inl ⟨rfl, rfl⟩⟩
  | remove xs =>
    exact Relation.ReflTransGen.mono (fun _ _ s => s.notes) _ _ (removeSymbols_walks w xs c trivial).1

theorem Plain.grows (s : Plain w c c') : c.calls <+: c'.calls :=
  kept_along (I := fun c' => c.calls <+: c'.calls) (fun _ _ n h => h.trans n.2.grows) s.notes
    (List.prefix_refl _)

theorem Step.grows (s : Step w c c') : c.calls <+: c'.calls := by
  cases s with
  | plain s => exact s.grows
  | subscribe =>
    rw [sendSubscription_calls]
    exact List.prefix_append _ _

def Unrefused (action : Frame.Action) (c : Client τ) : Prop :=
  ∀ call ∈ c.calls, call.refuses action = false

theorem Unrefused.of_grows {action : Frame.Action} (h : Unrefused action c')
    (hg : c.calls <+: c'.calls) : Unrefused action c :=
  fun call hm => h call (hg.subset hm)

end

/-! ## Runs -/

theorem reconnectAfter_lines (delay : Duration) :
    Walks (LineStep w) (fun _ => True) (reconnectAfter w delay) (fun _ _ => True) :=
  (reconnectAfter_walks w (fun _ _ => .link) (restore_walks w) delay).weaken (fun _ h => h) fun _ _ _ => trivial

def subscribes : Action → Bool
  | .subscribe .. => true
  | _ => false

theorem act_plain {action : Action} (h : subscribes action = false) :
    Walks (Plain w) (fun _ => True) (act w action) (fun _ _ => True) := by
  have answered {α : Type} {m : Op τ α} {f : α → Answer}
      (h : Walks (Plain w) (fun _ => True) m fun _ _ => True) :
      Walks (Plain w) (fun _ => True) (m >>= fun a => pure (f a)) fun _ _ => True :=
    h.bind fun _ => .pure fun _ _ => trivial
  have single {α : Type} {m : Op τ α} (h : ∀ c, Plain w c (m c).2) :
      Walks (Plain w) (fun _ => True) m fun _ _ => True :=
    .step (fun c _ => h c) fun _ _ => trivial
  have along {α : Type} {m : Op τ α} {Q : α → Client τ → Prop}
      (h : Walks (LineStep w) (fun _ => True) m Q) :
      Walks (Plain w) (fun _ => True) m fun _ _ => True :=
    (h.weaken (fun _ h => h) fun _ _ _ => trivial).mono fun _ _ s => .setup (.base s)
  cases action with
  | receive text => exact answered (single fun c => .receive text c)
  | elapse d => exact answered (along ((sleep_idles w d).mono fun _ _ s => .link (.idle s)))
  | createSession kind => exact answered (single fun c => .create kind c)
  | setSession session => exact answered (single fun c => .setup (.base (.link (.hold session c))))
  | connect => exact answered (along ((connect_walks w).mono fun _ _ => .link))
  | disconnect => exact answered (single fun c => .setup (.base (.link (.close c))))
  | reconnect =>
    exact answered (.get fun _ _ => (along (reconnectAfter_lines w _)).weaken
      (fun _ _ => trivial) fun _ _ h => h)
  | reconnectWithBackoff cancellation rounds =>
    exact answered (along (reconnectWithBackoff_walks w (fun _ _ => .link) (fun _ _ _ h => h)
      (reconnectAfter_lines w) cancellation rounds))
  | subscribe => cases h
  | registerHandler kind handler =>
    exact answered (single fun c => .setup (.arrange (f := (·.setHandler kind (some handler)))
      (fun _ => ⟨rfl, rfl⟩) c))
  | addSymbols xs => exact answered ((addSymbols_walks w xs).mono fun _ _ => .setup)
  | removeSymbols xs => exact answered (single fun c => .remove xs c)
  | filterSymbols xs =>
    exact answered (single fun c => .setup (.arrange (f := fun r => { r with symbolFilter := xs })
      (fun _ => ⟨rfl, rfl⟩) c))
  | filterExchanges xs =>
    exact answered (single fun c => .setup (.arrange (f := fun r => { r with exchangeFilter := xs })
      (fun _ => ⟨rfl, rfl⟩) c))
  | clearFilters =>
    exact answered (single fun c => .setup (.arrange (f := Registry.clearFilters)
      (fun _ => ⟨rfl, rfl⟩) c))
  | configure settings => exact answered (single fun c => .configure settings c)
  | listen listener => exact answered (single fun c => .record (f := fun j => { j with listener }) (fun _ => rfl) c)
  | resetStatistics => exact answered (single fun c => .record (f := Journal.resetStatistics) (fun _ => rfl) c)

theorem act_walks (action : Action) :
    Walks (Step w) (fun _ => True) (act w action) (fun _ _ => True) := by
  cases h : subscribes action with
  | false => exact (act_plain w h).mono fun _ _ => .plain
  | true =>
    cases action with
    | subscribe kind session symbols handler =>
      exact (subscribe_walks w kind session symbols handler).bind fun _ => .pure fun _ _ => trivial
    | _ => cases h

def after (actions : List Action) (c : Client τ) : Client τ := (actAll w actions c).2

theorem after_cons (action : Action) (rest : List Action) (c : Client τ) :
    after w (action :: rest) c = after w rest (act w action c).2 := rfl

theorem after_append (first rest : List Action) (c : Client τ) :
    after w (first ++ rest) c = after w rest (after w first c) := by
  induction first generalizing c with
  | nil => rfl
  | cons action first ih => rw [List.cons_append, after_cons, after_cons, ih]

theorem kept_after {I : Client τ → Prop} (hI : ∀ c c', Step w c c' → I c → I c')
    (actions : List Action) {c : Client τ} (h : I c) : I (after w actions c) := by
  induction actions generalizing c with
  | nil => exact h
  | cons action rest ih => exact ih (kept_along hI (act_walks w action c trivial).1 h)

theorem after_grows (actions : List Action) (c : Client τ) : c.calls <+: (after w actions c).calls :=
  kept_after w (I := fun c' => c.calls <+: c'.calls) (fun _ _ s h => h.trans s.grows) actions
    (List.prefix_refl _)

end MarketFeed.Client

/-! ## Small runs -/

namespace MarketFeed.Playback

def client (sending : Sending) : Client Playback :=
  .create { sending, now := .earliest } {} none "" .singleThread

def session : Session := ⟨"wss://feed", "session", .latest⟩

def handler : Handler := ⟨"handler", fun _ _ => .done⟩

def subscribe (kind : EventKind) (symbols : List String) : Action :=
  .subscribe kind session symbols handler

end MarketFeed.Playback
