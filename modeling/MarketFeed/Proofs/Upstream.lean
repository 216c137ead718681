import Mathlib
import MarketFeed.Proofs.Step

/-!
# What the other side has subscribed

The frames that the transport accepted say what the other side has subscribed on the connection
that is open. A connected client has all of that in its registry, so nothing that was removed there
goes on upstream.
-/

namespace MarketFeed

namespace World

variable {τ : Type} (w : World τ)

def Closed (s : τ) : Prop := ∀ t, w.Leads s t → (w.isOpen t).1 = false

/-- A transport that was found closed stays so until the next connect. -/
def StaysClosed : Prop := ∀ s, (w.isOpen s).1 = false → w.Closed (w.isOpen s).2

variable {w}

theorem Leads.trans {s t u : τ} (h : w.Leads s t) (h' : w.Leads t u) : w.Leads s u := by
  induction h' with
  | refl => exact h
  | isOpen _ ih => exact .isOpen ih
  | send frame _ ih => exact .send frame ih
  | disconnect _ ih => exact .disconnect ih
  | perform request _ ih => exact .perform request ih
  | now _ ih => exact .now ih
  | silentFor _ ih => exact .silentFor ih
  | fraction _ ih => exact .fraction ih

theorem Closed.leads {s t : τ} (h : w.Closed s) (l : w.Leads s t) : w.Closed t :=
  fun u l' => h u (l.trans l')

end World

namespace Client

open Log

variable {τ : Type} (w : World τ)

def Lost (c : Client τ) : Prop := w.Closed c.world ∨ c.isBeating = false

def Contained (c : Client τ) : Prop :=
  ∀ kind x, upstream c.calls kind x = true → c.dispatcher.registry.active kind = true ∧
    kind.isAccount = false ∧ x ∈ c.dispatcher.registry.symbols

theorem live_of_isConnected {c : Client τ} (h : (isConnected w c).1 = true) :
    c.phase = .connected ∧ ¬ Lost w c := by
  obtain ⟨hp, ho, hb⟩ := (isConnected_iff w c).1 h
  refine ⟨hp, fun hl => hl.elim (fun hl => ?_) fun hl => ?_⟩
  · rw [hl _ .refl] at ho; cases ho
  · rw [hl] at hb; cases hb

theorem lost_of_not_isConnected (hw : w.StaysClosed) {c : Client τ}
    (h : (isConnected w c).1 = false) (hp : (isConnected w c).2.phase = .connected) :
    Lost w (isConnected w c).2 := by
  rw [isConnected_apply] at h hp ⊢
  by_cases hc : c.phase = .connected
  · rw [if_pos hc, Bool.and_eq_false_iff] at h
    rw [if_pos hc]
    exact h.imp (hw c.world) id
  · rw [if_neg hc] at hp
    exact absurd hp hc

theorem Lost.leads {c c' : Client τ} (h : Lost w c) (hl : w.Leads c.world c'.world)
    (hb : c'.isBeating = c.isBeating) : Lost w c' :=
  h.imp (·.leads hl) hb.trans

/-! ## What a call changes -/

theorem Contained.of_eq {c c' : Client τ} (h : Contained c) (hc : c'.calls = c.calls)
    (ha : c'.dispatcher.registry.active = c.dispatcher.registry.active)
    (hx : ∀ x ∈ c.dispatcher.registry.symbols, x ∈ c'.dispatcher.registry.symbols) :
    Contained c' := by
  intro kind x hu
  obtain ⟨h₁, h₂, h₃⟩ := h kind x (hc ▸ hu)
  exact ⟨ha ▸ h₁, h₂, hx x h₃⟩

theorem applied_allowed {r : Registry} {subscribed : EventKind → String → Bool} {call : Call}
    (hs : ∀ frame res, call = .send frame res → frame.IsHeartbeat ∨ r.Allows frame) {kind : EventKind} {x : String}
    (h : applied subscribed call kind x = true) :
    subscribed kind x = true ∨ r.active kind = true ∧ kind.isAccount = false ∧ x ∈ r.symbols := by
  rcases call with ⟨⟩ | ⟨frame, e | _⟩ | ⟨⟩ | _ | ⟨⟩
  · exact .inl h
  · rw [applied_error] at h
    exact .inl h
  · obtain ⟨t, rfl⟩ | allowed := hs _ _ rfl
    · exact .inl h
    · cases allowed with
      | subscribe ha hx hm =>
        refine (applied_subscribe.1 h).imp id fun ⟨e, hk, hm⟩ => ?_
        exact ⟨e ▸ ha, e ▸ hk, hx x hm⟩
      | unsubscribe => exact .inl (applied_unsubscribe.1 h).1
  · exact .inl h
  · exact .inl h
  · exact .inl h

theorem Link.lost {c c' : Client τ} (s : Link w c c') (hp : c.phase = .connected)
    (hp' : c'.phase = .connected) (h : Lost w c) : Lost w c' := by
  cases s with
  | idle s =>
    cases s with
    | ask q hq => exact h.leads w (hq _) rfl
    | pass => exact h
    | @beat _ monitor due hb =>
      have closed : w.Closed c.world := h.resolve_right fun hf => by
        simp [isBeating, hb, Heartbeat.isFinished] at hf
      -- The cycle finds the transport closed, so it ends the heartbeat and sends nothing.
      have ho : (w.isOpen c.world).1 = false := closed _ .refl
      have hl : w.Leads c.world (w.isOpen c.world).2 := .isOpen .refl
      rw [beat_apply]
      rcases he : w.isOpen c.world with ⟨_ | _, s⟩
      · rw [he] at hl
        exact .inl (closed.leads hl)
      · rw [he] at ho; cases ho
  | hold => exact h
  | renew settings session =>
    rw [renewSession_apply]
    cases grant w settings.ttl session.kind c <;>
      exact h.leads w (.perform _ (.now .refl)) rfl
  | close => exact absurd hp' (teardown_phase w c)
  | openFor _ hn => exact absurd hp hn
  | measure => exact h

theorem LineStep.lost {c c' : Client τ} (s : LineStep w c c') (hp : c.phase = .connected)
    (hp' : c'.phase = .connected) (h : Lost w c) : Lost w c' := by
  cases s with
  | link s => exact s.lost w hp hp' h
  | count => exact h
  | send frame =>
    rw [sendReported_apply]
    exact h.leads w (.send frame .refl) rfl

def Kept (c : Client τ) : Prop := c.phase = .connected → Lost w c ∨ Contained c

theorem contained_of_opening {c : Client τ} {log : List Call} {call : Call}
    (hc : c.calls = log ++ [call]) (ho : call.isOpening = true) : Contained c := by
  intro kind x hu
  rw [hc, upstream_snoc, if_pos ho] at hu
  cases hu

theorem LineStep.kept {c c' : Client τ} (s : LineStep w c c') (h : Kept w c) : Kept w c' := by
  intro hp'
  obtain ⟨hr, ⟨hc, hp⟩ | ⟨call, hc, hp, hs⟩⟩ := s.noted
  · have hp := hp ▸ hp'
    exact (h hp).imp (s.lost w hp hp') fun h => h.of_eq hc (by rw [hr]) fun x hx => hr ▸ hx
  · by_cases ho : call.isOpening = true
    · exact .inr (contained_of_opening hc ho)
    · have hp := (hp hp').resolve_left ho
      refine (h hp).imp (s.lost w hp hp') fun h kind x hu => ?_
      rw [hc, upstream_snoc, if_neg ho] at hu
      rw [hr]
      exact (applied_allowed hs hu).elim (h kind x) id

/-! ## Removing symbols -/

theorem accepted_of_unrefused {kind : EventKind} {xs : List String} {r : Except FeedError Unit}
    (h : (Call.send (.unsubscribe kind xs) r).refuses .unsubscribe = false) : r = .ok ⟨⟩ := by
  cases r with
  | error e => cases h
  | ok => rfl

theorem upstream_unsubscribed (xs : List String) : ∀ {kinds : List EventKind} {c : Client τ},
    (∀ k ∈ kinds, k.isAccount = false) →
    Unrefused .unsubscribe (sendAll w (kinds.map fun k => .unsubscribe k xs) c).2 → ∀ {kind x},
      upstream (sendAll w (kinds.map fun k => .unsubscribe k xs) c).2.calls kind x = true →
        upstream c.calls kind x = true ∧ (kind ∈ kinds → x ∉ xs) := by
  intro kinds
  induction kinds with
  | nil => exact fun _ _ _ _ h => ⟨h, fun hm => absurd hm List.not_mem_nil⟩
  | cons k kinds ih =>
    intro c hk hu kind x h
    obtain ⟨h, hx⟩ := ih (c := (sendReported w (.unsubscribe k xs) c).2)
      (fun k hm => hk k (List.mem_cons_of_mem _ hm)) hu h
    obtain ⟨sent, -, hc⟩ := sendAll_calls w (kinds.map fun k => .unsubscribe k xs)
      (sendReported w (.unsubscribe k xs) c).2
    have hu := hu.of_grows (hc ▸ List.prefix_append _ _)
    rw [sendReported_apply] at h hu
    rw [accepted_of_unrefused (hu _ (List.mem_append_right _ List.mem_cons_self)), upstream_snoc] at h
    obtain ⟨h, hx'⟩ := applied_unsubscribe.1 h
    refine ⟨h, fun hm => ?_⟩
    rcases List.mem_cons.1 hm with rfl | hm
    · exact hx' rfl (hk kind List.mem_cons_self)
    · exact hx hm

theorem removeSymbols_kept (hw : w.StaysClosed) (xs : List String) {c : Client τ} (h : Kept w c)
    (hu : Unrefused .unsubscribe (removeSymbols w xs c).2) : Kept w (removeSymbols w xs c).2 := by
  let removed := (c.dispatcher.registry.removeSymbols xs).1
  let struck : Client τ := (sampleSymbols (withRegistry (·.removeSymbols xs) c).2).2
  have result : (removeSymbols w xs c).2 = (sendForMarketKinds w removed .unsubscribe struck).2 := rfl
  rw [result, sendForMarketKinds_apply] at hu ⊢
  have left : ∀ x ∈ c.dispatcher.registry.symbols, x ∉ removed →
      x ∈ struck.dispatcher.registry.symbols := fun x hx hn =>
    Decidable.not_not.1 fun hs => hn (TextSet.mem_removed.2 ⟨hx, hs⟩)
  by_cases hr : removed = []
  · rw [if_pos hr]
    intro hp
    exact (h hp).imp id fun h => h.of_eq rfl rfl fun x hx => left x hx (hr ▸ List.not_mem_nil)
  rw [if_neg hr] at hu ⊢
  -- The registry has forgotten the symbols already, so containment fails here and holds again only
  -- after the last frame. That a client which is not connected sends none is made up for by `Lost`.
  by_cases hc : (isConnected w struck).1 = true
  · rw [if_pos hc] at hu ⊢
    obtain ⟨hp, live⟩ := live_of_isConnected w hc
    have contained : Contained c := (h hp).resolve_left live
    obtain ⟨s, hs⟩ := isConnected_world w struck
    refine fun _ => .inr fun kind x hx => ?_
    have market : ∀ k ∈ struck.dispatcher.registry.activeMarketKinds, k.isAccount = false :=
      fun k hk => (Registry.mem_activeMarketKinds.1 hk).2
    obtain ⟨hx, hn⟩ := upstream_unsubscribed w removed market hu hx
    rw [hs] at hx
    obtain ⟨ha, hm, hx⟩ := contained kind x hx
    have listed := Registry.mem_activeMarketKinds.2 ⟨ha, hm⟩
    rw [sendAll_registry, hs]
    exact ⟨ha, hm, left x hx (hn listed)⟩
  · rw [if_neg hc]
    exact fun hp => .inl (lost_of_not_isConnected w hw (by simpa using hc) hp)

/-! ## Runs -/

theorem Setup.kept {c c' : Client τ} (s : Setup (LineStep w) c c') (h : Kept w c) : Kept w c' := by
  cases s with
  | base s => exact s.kept w h
  | @arrange f hf =>
    obtain ⟨hx, ha⟩ := hf c.dispatcher.registry
    exact fun hp => (h hp).imp id fun h => h.of_eq rfl ha fun x hm => hx ▸ hm
  | add xs =>
    exact fun hp => (h hp).imp id fun h => h.of_eq rfl rfl fun x hm => TextSet.mem_addAll.2 (.inl hm)

theorem Plain.kept (hw : w.StaysClosed) {c c' : Client τ} (s : Plain w c c') (h : Kept w c)
    (hu : Unrefused .unsubscribe c') : Kept w c' := by
  cases s with
  | setup s => exact s.kept w h
  | create kind =>
    rw [createSession_apply]
    cases c.sessions with
    | none => exact h
    | some settings =>
      refine fun hp => (h hp).imp (·.leads w (.perform _ (.now .refl)) rfl) fun h kind x hu => ?_
      exact h kind x ((congrFun₂ (upstream_snoc _ _) kind x).symm.trans hu)
  | receive text =>
    unfold Client.receive
    split
    · refine fun hp => (h hp).imp id fun h => h.of_eq rfl ?_ fun x hm => ?_
      · exact congrArg Registry.active (Dispatcher.dispatch_registry _ _ _)
      · exact (congrArg (x ∈ ·.symbols) (Dispatcher.dispatch_registry _ _ _)).mpr hm
    · exact h
  | configure => exact h
  | record => exact h
  | remove xs => exact removeSymbols_kept w hw xs h hu

theorem Step.kept (hw : w.StaysClosed) {c c' : Client τ} (s : Step w c c') (h : Kept w c)
    (hu : Unrefused .unsubscribe c') : Kept w c' := by
  cases s with
  | plain s => exact s.kept w hw h hu
  | subscribe kind xs hp hx hm =>
    have hl : w.Leads c.world (w.send (.subscribe kind xs) c.world).2 := .send _ .refl
    rw [sendSubscription_apply]
    rcases hs : w.send (.subscribe kind xs) c.world with ⟨e | _, s⟩
    · rw [hs] at hl
      refine fun hp => (h hp).imp (·.leads w hl rfl) fun h k x hu => ?_
      rw [upstream_snoc, if_neg nofun, applied_error] at hu
      exact h k x hu
    · rw [hs] at hl
      refine fun hp => (h hp).imp (·.leads w hl rfl) fun h k x hu => ?_
      rw [upstream_snoc, if_neg nofun, applied_subscribe] at hu
      rcases hu with hu | ⟨rfl, ha, hk⟩
      · obtain ⟨ha, hm, hx⟩ := h k x hu
        refine ⟨?_, hm, hx⟩
        show (if k = kind then true else c.dispatcher.registry.active k) = true
        rw [ha, ite_self]
      · exact ⟨if_pos rfl, ha, hx x hk⟩

theorem addSymbols_registry (xs : List String) (c : Client τ) :
    (addSymbols w xs c).2.dispatcher.registry = (c.dispatcher.registry.addSymbols xs).2 :=
  sendForMarketKinds_registry ..

theorem removeSymbols_registry (xs : List String) (c : Client τ) :
    (removeSymbols w xs c).2.dispatcher.registry = (c.dispatcher.registry.removeSymbols xs).2 :=
  sendForMarketKinds_registry ..

theorem kept_create (world : τ) (settings : StreamSettings) (sessions : Option SessionSettings)
    (token : String) (runtime : Runtime) : Kept w (create world settings sessions token runtime) :=
  fun h => nomatch h

theorem kept_after_unrefused (hw : w.StaysClosed) (actions : List Action) {c : Client τ}
    (h : Kept w c) (hu : Unrefused .unsubscribe (after w actions c)) : Kept w (after w actions c) :=
  kept_after w (I := fun c => Unrefused .unsubscribe c → Kept w c)
    (fun _ _ s h hu => s.kept w hw (h (hu.of_grows s.grows)) hu) actions (fun _ => h) hu

section
variable (world : τ) (settings : StreamSettings) (sessions : Option SessionSettings)
  (token : String) (runtime : Runtime)

/-- While a client is connected, everything that is subscribed upstream is an active market kind
for a subscribed symbol. Symbols that were just removed are subscribed for no kind. -/
theorem upstream_registered (hw : w.StaysClosed) (actions : List Action)
    (hu : Unrefused .unsubscribe (after w actions (create world settings sessions token runtime)))
    (hc : (isConnected w (after w actions (create world settings sessions token runtime))).1 = true) :
    let final := after w actions (create world settings sessions token runtime)
    (∀ kind x, upstream final.calls kind x = true →
      kind ∈ final.dispatcher.registry.activeMarketKinds ∧
        x ∈ final.dispatcher.registry.symbols) ∧
    ∀ earlier xs, actions = earlier ++ [.removeSymbols xs] →
      ∀ x ∈ xs, ∀ kind, upstream final.calls kind x = false := by
  intro final
  obtain ⟨hp, live⟩ := live_of_isConnected w hc
  have contained : Contained final :=
    (kept_after_unrefused w hw actions (kept_create w world settings sessions token runtime) hu
      hp).resolve_left live
  refine ⟨fun kind x hx => ?_, ?_⟩
  · obtain ⟨ha, hm, hx⟩ := contained kind x hx
    exact ⟨Registry.mem_activeMarketKinds.2 ⟨ha, hm⟩, hx⟩
  · rintro earlier xs rfl x hx kind
    refine Bool.eq_false_iff.2 fun h => ?_
    obtain ⟨-, -, hm⟩ := contained kind x h
    have registry : final.dispatcher.registry =
        ((after w earlier (create world settings sessions token runtime)).dispatcher.registry.removeSymbols
          xs).2 := by
      show (after w (earlier ++ [.removeSymbols xs]) _).dispatcher.registry = _
      rw [after_append]
      exact removeSymbols_registry w xs _
    rw [registry] at hm
    exact (TextSet.mem_removeAll.1 hm).2 hx

end

theorem playback_staysClosed : Playback.world.StaysClosed := by
  intro s hs t hl
  have closed : t.isOpen = false := by
    induction hl with
    | refl => exact hs
    | send frame _ ih =>
      rename_i t _
      show (Playback.send frame t).2.isOpen = false
      unfold Playback.send
      split <;> exact ih
    | disconnect => rfl
    | _ => assumption
  exact closed

def removal : List Action :=
  [Playback.subscribe .trade ["QQQ", "SPY"], .elapse (.ofSeconds 31)] ++ [.removeSymbols ["QQQ"]]

theorem upstream_registered_removal :
    Playback.world.StaysClosed ∧
    Unrefused .unsubscribe (after Playback.world removal (Playback.client .succeeds)) ∧
    (isConnected Playback.world (after Playback.world removal (Playback.client .succeeds))).1 = true ∧
    upstream (after Playback.world removal (Playback.client .succeeds)).calls .trade "SPY" = true ∧
    upstream (after Playback.world removal (Playback.client .succeeds)).calls .trade "QQQ" = false := by
  have unrefused : Unrefused .unsubscribe (after Playback.world removal (Playback.client .succeeds)) := by
    have all : (after Playback.world removal (Playback.client .succeeds)).calls.all
        (!·.refuses .unsubscribe) = true := by cbv
    exact fun call hm => by simpa using List.all_eq_true.1 all call hm
  have connected : (isConnected Playback.world
      (after Playback.world removal (Playback.client .succeeds))).1 = true := by cbv
  obtain ⟨-, removed⟩ := upstream_registered Playback.world { now := .earliest } {} none ""
    .singleThread playback_staysClosed removal unrefused connected
  refine ⟨playback_staysClosed, unrefused, connected, by cbv, ?_⟩
  exact removed [Playback.subscribe .trade ["QQQ", "SPY"], .elapse (.ofSeconds 31)] ["QQQ"] rfl
    "QQQ" List.mem_cons_self .trade

end Client

end MarketFeed
