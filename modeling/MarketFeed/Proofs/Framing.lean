import MarketFeed.Proofs.Step

/-!
# The frames of a client

A client may be given any symbols, empty ones and repeated ones among them, and any number of them.
What it hands to its transport is sound all the same: its registry lists no empty symbol, and a frame
about a market kind is made of symbols from there, or of those that a subscription is for.
-/

namespace MarketFeed

def Call.frame? : Call → Option Frame
  | send frame _ | stall frame => some frame
  | _ => none

namespace Frame

/-- Market kinds are asked for by symbols, none of them empty. Account kinds are started only, and
as a whole. -/
inductive Sound : Frame → Prop
  | market {action kind xs} (hk : kind.isAccount = false) (hx : xs ≠ []) (hn : "" ∉ xs) :
      Sound (.subscription action kind (some xs))
  | account {kind} (hk : kind.isAccount = true) : Sound (.subscription .subscribe kind none)
  | heartbeat (t : Int) : Sound (.heartbeat t)

theorem sound_subscribe {kind : EventKind} {xs : List String} (hx : kind.isAccount = false → xs ≠ [])
    (hn : "" ∉ xs) : (subscribe kind xs).Sound := by
  unfold subscribe request
  cases hk : kind.isAccount with
  | true => exact .account hk
  | false => exact .market hk (hx hk) hn

theorem sound_unsubscribe {kind : EventKind} {xs : List String} (hk : kind.isAccount = false)
    (hx : xs ≠ []) (hn : "" ∉ xs) : (unsubscribe kind xs).Sound := by
  unfold unsubscribe request
  simp only [hk]
  exact .market hk hx hn

end Frame

namespace Registry

def Named (r : Registry) : Prop := "" ∉ r.symbols

variable {r : Registry}

theorem Named.addSymbols (h : r.Named) (xs : List String) : (r.addSymbols xs).2.Named := by
  intro hm
  obtain hm | ⟨-, hn⟩ := TextSet.mem_addAll.1 hm
  · exact h hm
  · exact hn rfl

theorem Named.removeSymbols (h : r.Named) (xs : List String) : (r.removeSymbols xs).2.Named :=
  fun hm => h (TextSet.mem_removeAll.1 hm).1

theorem Named.added (h : r.Named) (xs : List String) : "" ∉ (r.addSymbols xs).1 :=
  fun hm => h.addSymbols xs (TextSet.mem_added.1 hm).1

theorem Named.removed (h : r.Named) (xs : List String) : "" ∉ (r.removeSymbols xs).1 :=
  fun hm => h (TextSet.mem_removed.1 hm).1

theorem Named.replayFrames (h : r.Named) : ∀ frame ∈ r.replayFrames, frame.Sound := by
  intro frame hf
  unfold Registry.replayFrames at hf
  obtain ⟨kind, hk, rfl⟩ := List.mem_map.1 hf
  obtain ⟨-, hs⟩ := List.mem_filter.1 hk
  refine Frame.sound_subscribe (fun hm he => ?_) h
  simp [hm, TextSet.isEmpty, he] at hs

end Registry

namespace Client

variable {τ : Type} (w : World τ)

def Speaks (c c' : Client τ) : Prop :=
  c.dispatcher.registry.Named → c'.dispatcher.registry.Named ∧
    ∃ more, c'.calls = c.calls ++ more ∧
      ∀ call ∈ more, ∀ frame, call.frame? = some frame → frame.Sound

section
variable {w} {c c' c'' : Client τ}

theorem Speaks.silent (hc : c'.calls = c.calls)
    (hr : c.dispatcher.registry.Named → c'.dispatcher.registry.Named) : Speaks c c' := by
  intro h
  refine ⟨hr h, [], by rw [hc, List.append_nil], ?_⟩
  intro call hm
  cases hm

theorem Speaks.called {call : Call} (hc : c'.calls = c.calls ++ [call])
    (hr : c'.dispatcher.registry.symbols = c.dispatcher.registry.symbols)
    (hs : c.dispatcher.registry.Named → ∀ frame, call.frame? = some frame → frame.Sound) :
    Speaks c c' := by
  intro h
  refine ⟨?_, [call], hc, ?_⟩
  · unfold Registry.Named
    rw [hr]
    exact h
  · intro call' hm
    rw [List.mem_singleton.1 hm]
    exact hs h

theorem Speaks.refl (c : Client τ) : Speaks c c := .silent rfl id

theorem Speaks.trans (h : Speaks c c') (h' : Speaks c' c'') : Speaks c c'' := by
  intro hn
  obtain ⟨hn', more, hc, hs⟩ := h hn
  obtain ⟨hn'', more', hc', hs'⟩ := h' hn'
  refine ⟨hn'', more ++ more', by rw [hc', hc, List.append_assoc], ?_⟩
  intro call hm
  obtain hm | hm := List.mem_append.1 hm
  · exact hs call hm
  · exact hs' call hm

theorem Walks.speaks {α : Type} {P : Client τ → Prop} {m : Op τ α} {Q : α → Client τ → Prop}
    (h : Walks Speaks P m Q) (hc : P c) : Speaks c (m c).2 :=
  kept_along (I := Speaks c) (fun _ _ s h => h.trans s) (h c hc).1 (.refl c)

/-! ## Steps -/

theorem Idle.speaks (s : Idle w c c') : Speaks c c' := by
  obtain ⟨hr, -, hc | ⟨t, hc | ⟨r, hc⟩⟩⟩ := s.calls w
  · apply Speaks.silent hc
    rw [hr]
    exact id
  all_goals
    apply Speaks.called hc (by rw [hr])
    rintro - frame hf
    cases hf
    exact .heartbeat t

theorem Speaks.mute {call : Call} (hf : call.frame? = none) (hc : c'.calls = c.calls ++ [call])
    (hr : c'.dispatcher.registry.symbols = c.dispatcher.registry.symbols) : Speaks c c' := by
  apply Speaks.called hc hr
  rintro - frame hf'
  rw [hf] at hf'
  cases hf'

theorem Link.speaks (s : Link w c c') : Speaks c c' := by
  have same : c'.dispatcher.registry.symbols = c.dispatcher.registry.symbols := by rw [s.registry]
  cases s with
  | idle s => exact s.speaks
  | hold => exact .silent rfl id
  | renew settings session =>
    rw [renewSession_apply]
    cases grant w settings.ttl session.kind c <;> exact .mute rfl rfl rfl
  | close =>
    have closed : (teardown w c).2.calls = c.calls ++ [.disconnect] := by rw [teardown_apply]
    exact .mute rfl closed same
  | openFor session =>
    rw [openFor_apply]
    rcases w.connect (.ofSession session c.token) c.world with ⟨_ | _, s⟩ <;> exact .mute rfl rfl rfl
  | measure => exact .silent rfl id

theorem Setup.speaks (s : Setup (Link w) c c') : Speaks c c' := by
  cases s with
  | base s => exact s.speaks
  | @arrange f hf =>
    refine .silent rfl fun h => ?_
    show "" ∉ (f c.dispatcher.registry).symbols
    rw [(hf _).1]
    exact h
  | add xs => exact .silent rfl fun h => h.addSymbols xs

end

theorem sendAll_speaks {frames : List Frame} {c : Client τ}
    (hf : c.dispatcher.registry.Named → ∀ frame ∈ frames, frame.Sound) :
    Speaks c (sendAll w frames c).2 := by
  intro h
  obtain ⟨sent, hs, hc⟩ := sendAll_calls w frames c
  refine ⟨?_, _, hc, ?_⟩
  · rw [sendAll_registry]
    exact h
  · intro call hm frame hframe
    obtain ⟨s, hs', rfl⟩ := List.mem_map.1 hm
    cases hframe
    apply hf h
    rw [← hs]
    exact List.mem_map.2 ⟨s, hs', rfl⟩

theorem restore_speaks (c : Client τ) : Speaks c (restore w c).2 := by
  let counted : Client τ :=
    (sample .reconnect (modifyJournal (·.modifyStatistics (·.countReconnect)) c).2).2
  have count : Speaks c counted := .silent rfl id
  exact count.trans (sendAll_speaks w fun h => h.replayFrames)

theorem sendForMarketKinds_speaks {xs : List String} {frame : EventKind → List String → Frame}
    {c : Client τ} (hf : c.dispatcher.registry.Named → xs ≠ [] →
      ∀ kind : EventKind, kind.isAccount = false → (frame kind xs).Sound) :
    Speaks c (sendForMarketKinds w xs frame c).2 := by
  obtain ⟨s, hs⟩ := isConnected_world w c
  have look : Speaks c (isConnected w c).2 := by
    rw [hs]
    exact .silent rfl id
  rw [sendForMarketKinds_apply]
  by_cases hx : xs = []
  · rw [if_pos hx]
    exact .refl c
  rw [if_neg hx]
  by_cases hb : (isConnected w c).1 = true
  · rw [if_pos hb]
    refine look.trans (sendAll_speaks w fun h f hm => ?_)
    obtain ⟨kind, hk, rfl⟩ := List.mem_map.1 hm
    rw [hs] at h
    exact hf h hx kind (Registry.mem_activeMarketKinds.1 hk).2
  · rw [if_neg hb]
    exact look

/-! ## Operations -/

theorem reconnectAfter_speaks (delay : Duration) :
    Walks Speaks (fun _ => True) (reconnectAfter w delay) (fun _ _ => True) := by
  have restoring : Walks Speaks (fun c => c.phase = .connected) (restore w) fun _ _ => True :=
    .step (fun c _ => restore_speaks w c) fun _ _ => trivial
  apply (reconnectAfter_walks w (fun _ _ s => s.speaks) restoring delay).weaken (fun _ h => h)
  intro _ _ _
  trivial

theorem subscribe_speaks (kind : EventKind) (session : Session) (symbols : List String)
    (handler : Handler) (c : Client τ) :
    Speaks c (subscribe w kind session symbols handler c).2 := by
  obtain ⟨c', path, split⟩ := subscribe_splits w kind session symbols handler c
  have before : Speaks c c' := kept_along (I := Speaks c) (fun _ _ s h => h.trans s.speaks) path (.refl c)
  obtain ⟨e, he⟩ | ⟨xs, -, ⟨hx, hm⟩, he⟩ := split
  · rw [he]
    exact before
  rw [he]
  refine before.trans (.called (sendSubscription_calls w kind xs c') ?_ ?_)
  · rw [sendSubscription_apply]
    rcases w.send (.subscribe kind xs) c'.world with ⟨_ | _, s⟩ <;> rfl
  · intro h frame hf
    cases hf
    exact Frame.sound_subscribe hm fun hn => h (hx _ hn)

theorem addSymbols_speaks (xs : List String) (c : Client τ) :
    Speaks c (addSymbols w xs c).2 := by
  let stored : Client τ := (sampleSymbols (withRegistry (·.addSymbols xs) c).2).2
  intro h
  have store : Speaks c stored := .silent rfl fun h => h.addSymbols xs
  refine store.trans (sendForMarketKinds_speaks w ?_) h
  intro _ hx kind _
  exact Frame.sound_subscribe (fun _ => hx) (h.added xs)

theorem removeSymbols_speaks (xs : List String) (c : Client τ) :
    Speaks c (removeSymbols w xs c).2 := by
  let struck : Client τ := (sampleSymbols (withRegistry (·.removeSymbols xs) c).2).2
  intro h
  have strike : Speaks c struck := .silent rfl fun h => h.removeSymbols xs
  refine strike.trans (sendForMarketKinds_speaks w ?_) h
  intro _ hx kind hk
  exact Frame.sound_unsubscribe hk hx (h.removed xs)

theorem act_speaks (action : Action) (c : Client τ) : Speaks c (act w action c).2 := by
  have linked {α : Type} {m : Op τ α} {f : α → Answer} {Q : α → Client τ → Prop}
      (h : Walks (Link w) (fun _ => True) m Q) :
      Speaks c ((m >>= fun a => pure (f a) : Op τ Answer) c).2 :=
    (h.mono fun _ _ s => s.speaks).speaks trivial
  cases action with
  | receive text =>
    apply Speaks.silent (receive_calls text c)
    show _ → (receive text c).2.dispatcher.registry.Named
    unfold receive
    split
    · dsimp only
      rw [Dispatcher.dispatch_registry]
      exact id
    · exact id
  | elapse d => exact linked ((sleep_idles w d).mono fun _ _ => .idle)
  | createSession kind =>
    show Speaks c (createSession w kind c).2
    rw [createSession_apply]
    cases c.sessions with
    | none => exact .refl c
    | some => exact .mute rfl rfl rfl
  | connect => exact linked (connect_walks w)
  | disconnect => exact (Link.close (w := w) c).speaks
  | reconnect => exact (reconnectAfter_speaks w _).speaks trivial
  | reconnectWithBackoff cancellation rounds =>
    exact (reconnectWithBackoff_walks w (fun _ _ s => s.speaks) (fun _ _ _ h => h)
      (reconnectAfter_speaks w) cancellation rounds).speaks trivial
  | subscribe kind session symbols handler => exact subscribe_speaks w kind session symbols handler c
  | addSymbols xs => exact addSymbols_speaks w xs c
  | removeSymbols xs => exact removeSymbols_speaks w xs c
  | _ => exact .silent rfl id

theorem after_speaks (actions : List Action) (c : Client τ) : Speaks c (after w actions c) := by
  induction actions generalizing c with
  | nil => exact .refl c
  | cons action rest ih => exact (act_speaks w action c).trans (ih _)

/-- After every run no empty symbol is registered, and every frame that was handed to the transport,
by whatever operation and whatever became of it, is sound: about a market kind it lists symbols and
none of them is empty, and about an account kind it is a subscription without symbols. -/
theorem frames_sound (world : τ) (settings : StreamSettings) (sessions : Option SessionSettings)
    (token : String) (runtime : Runtime) (actions : List Action) :
    let final := after w actions (create world settings sessions token runtime)
    "" ∉ final.dispatcher.registry.symbols ∧
    ∀ call ∈ final.calls, ∀ action kind symbols,
      call.frame? = some (.subscription action kind symbols) →
        (kind.isAccount = false → ∃ xs, symbols = some xs ∧ xs ≠ [] ∧ "" ∉ xs) ∧
        (kind.isAccount = true → action = .subscribe ∧ symbols = none ∧
          ∀ m ∈ (Frame.subscription action kind symbols).members, m.1 ≠ "symbols") := by
  intro final
  have fresh : (create world settings sessions token runtime).dispatcher.registry.Named :=
    List.not_mem_nil
  obtain ⟨hn, more, hc, hs⟩ := after_speaks w actions (create world settings sessions token runtime) fresh
  refine ⟨hn, ?_⟩
  intro call hm action kind symbols hf
  have made : call ∈ more := by
    rw [show final.calls = more from hc] at hm
    exact hm
  cases hs call made _ hf with
  | market hk hx hn => exact ⟨fun _ => ⟨_, rfl, hx, hn⟩, by simp [hk]⟩
  | account hk => exact ⟨by simp [hk], fun _ => ⟨rfl, rfl, by simp [Frame.members]⟩⟩

-- Empty symbols are left out and repeated ones are not; symbols for an account kind are ignored.
example : (after Playback.world
    [Playback.subscribe .trade ["", "SPY", "SPY"], .addSymbols ["", "QQQ"], .removeSymbols ["SPY", ""],
      Playback.subscribe .order ["IBM"]] (Playback.client .succeeds)).calls.filterMap Call.frame? =
    [.subscribe .trade ["SPY", "SPY"], .subscribe .trade ["QQQ"], .unsubscribe .trade ["SPY"],
      .subscribe .order []] := by cbv

end Client

end MarketFeed
