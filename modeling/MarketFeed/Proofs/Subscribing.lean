import Mathlib
import MarketFeed.Proofs.Carriage
import MarketFeed.Proofs.Coverage

/-!
# What a subscription comes to

A subscription is refused at once, with nothing changed, or it gets the client connected and sends one
frame. It succeeds exactly if that frame is accepted, and only then the kind becomes active; so what a
reconnection restores has been subscribed with success.
-/

namespace MarketFeed.Client

variable {τ : Type} (w : World τ)

/-! ## Getting connected -/

structure Dials (c c' : Client τ) (made : List Call) : Prop where
  calls : c'.calls = c.calls ++ made
  active : c'.dispatcher.registry.active = c.dispatcher.registry.active
  accepted : made.filterMap Call.accepted? = []
  connects : (made.filterMap Call.target?).length ≤ 1

theorem Dials.of_world {c c' : Client τ} {s : τ} (h : c' = { c with world := s }) :
    Dials c c' [] := by
  subst h
  exact ⟨(List.append_nil _).symm, rfl, rfl, by simp⟩

theorem Dials.looked {c c' c'' : Client τ} {made : List Call} {s s' : τ}
    (h : Dials { c with world := s } c' made) (look : c'' = { c' with world := s' }) :
    Dials c c'' made := by
  subst look
  exact ⟨h.calls, h.active, h.accepted, h.connects⟩

section
variable {w} {c : Client τ}

theorem Checks.unheard {requests : List Call} {held : Except FeedError (Option Session)}
    (checks : Checks w c requests held) :
    requests.filterMap Call.accepted? = [] ∧ requests.filterMap Call.target? = [] := by
  cases checks with
  | keeps => exact ⟨rfl, rfl⟩
  | renews => exact ⟨rfl, rfl⟩

theorem Opens.unheard {token : String} {held : Except FeedError (Option Session)}
    {calls : List Call} {result : Except FeedError Unit} {up : Bool}
    (opens : Opens token held calls result up) :
    calls.filterMap Call.accepted? = [] ∧ (calls.filterMap Call.target?).length ≤ 1 := by
  cases opens with
  | refused | idle => simp
  | failed | opened => simp [Call.accepted?, Call.target?]

end

theorem connect_dials_closed {c : Client τ} (hp : c.phase ≠ .connected) :
    ∃ made, Dials c (connect w c).2 made := by
  obtain ⟨requests, held, calls, up, checks, opens, -, track⟩ := connect_course w hp
  obtain ⟨silent, unopened⟩ := checks.unheard
  obtain ⟨silent', once⟩ := opens.unheard
  refine ⟨requests ++ calls, track.calls, congrArg Registry.active track.registry, ?_, ?_⟩
  · rw [List.filterMap_append, silent, silent']
    rfl
  · rw [List.filterMap_append, unopened]
    exact once

theorem connect_dials (c : Client τ) : ∃ made, Dials c (connect w c).2 made := by
  by_cases hp : c.phase = .connected
  · obtain ⟨s, look⟩ := isConnected_world w c
    rw [connect_connected w hp]
    by_cases hb : (isConnected w c).1 = true
    · rw [if_pos hb]
      exact ⟨[], .of_world look⟩
    · rw [if_neg hb]
      obtain ⟨made, dials⟩ := connect_dials_closed w (teardown_phase w (isConnected w c).2)
      have closing := teardown_track w (isConnected w c).2
      rw [look] at closing dials ⊢
      refine ⟨.disconnect :: made, ?_, ?_, dials.accepted, dials.connects⟩
      · rw [dials.calls, closing.calls, List.append_assoc]
        rfl
      · exact dials.active.trans (congrArg Registry.active closing.registry)
  · exact connect_dials_closed w hp

theorem ensureConnected_dials (c : Client τ) : ∃ made, Dials c (ensureConnected w c).2 made ∧
    ((isConnected w c).1 = true → made = []) := by
  obtain ⟨s, look⟩ := isConnected_world w c
  rw [ensureConnected_apply]
  by_cases hb : (isConnected w c).1 = true
  · rw [if_pos hb]
    exact ⟨[], .of_world look, fun _ => rfl⟩
  · rw [if_neg hb, look]
    obtain ⟨made, dials⟩ := connect_dials w { c with world := s }
    refine ⟨made, ?_, fun hb' => absurd hb' hb⟩
    rcases hr : connect w { c with world := s } with ⟨e | _, c'⟩
    · rw [hr] at dials
      exact dials.looked rfl
    · rw [hr] at dials
      obtain ⟨s', look'⟩ := isConnected_world w c'
      exact dials.looked look'

theorem prepared_dials (kind : EventKind) (session : Session) (xs : List String) (handler : Handler)
    (c : Client τ) :
    ∃ made, Dials c (ensureConnected w (prepareSubscription kind session xs handler c).2).2 made ∧
      ((isConnected w c).1 = true → made = []) := by
  obtain ⟨made, dials, quiet⟩ :=
    ensureConnected_dials w (prepareSubscription kind session xs handler c).2
  refine ⟨made, ⟨dials.calls, dials.active, dials.accepted, dials.connects⟩, fun hb => quiet ?_⟩
  rw [isConnected_iff] at hb ⊢
  exact hb

/-! ## The frame of a subscription -/

def Unfit (kind : EventKind) (session : Session) (symbols : List String) : Prop :=
  session.isActive = false ∨ kind.isAccount = false ∧ ∀ x ∈ symbols, x = ""

def wanted (kind : EventKind) (symbols : List String) : Frame :=
  .subscription .subscribe kind (if kind.isAccount then none else some (symbols.filter (· ≠ "")))

theorem subscriptionSymbols_cases (kind : EventKind) (symbols : List String) :
    (kind.isAccount = false ∧ (∀ x ∈ symbols, x = "") ∧
        subscriptionSymbols kind symbols = .error symbolsEmpty) ∨
      ¬ (kind.isAccount = false ∧ ∀ x ∈ symbols, x = "") ∧
        ∃ xs, subscriptionSymbols kind symbols = .ok xs ∧
          Frame.subscribe kind xs = wanted kind symbols := by
  unfold subscriptionSymbols wanted
  by_cases account : kind.isAccount = true
  · right
    simp [account, Frame.subscribe, Frame.request]
  · by_cases empty : ∀ x ∈ symbols, x = ""
    · left
      simpa [account] using empty
    · right
      simpa [account, Frame.subscribe, Frame.request] using empty

theorem sendSubscription_active (kind : EventKind) (xs : List String) (c : Client τ) :
    let r := sendSubscription w kind xs c
    (r.1 = .ok () → ∀ k, r.2.dispatcher.registry.active k = true ↔
      k = kind ∨ c.dispatcher.registry.active k = true) ∧
    ∀ e, r.1 = .error e → r.2.dispatcher.registry.active = c.dispatcher.registry.active := by
  dsimp only
  rw [sendSubscription_apply]
  rcases w.send (.subscribe kind xs) c.world with ⟨_ | _, s⟩
  · exact ⟨nofun, fun _ _ => rfl⟩
  · refine ⟨fun _ k => ?_, nofun⟩
    show (if k = kind then true else c.dispatcher.registry.active k) = true ↔ _
    by_cases same : k = kind <;> simp [same]

structure Settles (kind : EventKind) (frame : Frame) (c : Client τ)
    (r : Except FeedError Unit × Client τ) (made : List Call) : Prop where
  calls : r.2.calls = c.calls ++ made
  succeeds : r.1 = .ok () ↔ made.filterMap Call.accepted? = [frame]
  activates : r.1 = .ok () → ∀ k, r.2.dispatcher.registry.active k = true ↔
    k = kind ∨ c.dispatcher.registry.active k = true
  fails : ∀ e, r.1 = .error e → made.filterMap Call.accepted? = [] ∧
    r.2.dispatcher.registry.active = c.dispatcher.registry.active
  connects : (made.filterMap Call.target?).length ≤ 1
  stays : (isConnected w c).1 = true → made.filterMap Call.target? = []

section
variable {w} {kind : EventKind} {c c' : Client τ} {made : List Call} (dials : Dials c c' made)
  (quiet : (isConnected w c).1 = true → made = [])
include dials quiet

theorem Dials.settles_unconnected (frame : Frame) (e : FeedError) :
    Settles w kind frame c (.error e, c') made := by
  refine ⟨dials.calls, ?_, nofun, ?_, dials.connects, ?_⟩
  · simp [dials.accepted]
  · exact fun _ _ => ⟨dials.accepted, dials.active⟩
  · intro hb
    simp [quiet hb]

theorem Dials.settles_sent (xs : List String) :
    Settles w kind (.subscribe kind xs) c (sendSubscription w kind xs c')
      (made ++ [.send (.subscribe kind xs) (sendSubscription w kind xs c').1]) := by
  have calls := sendSubscription_calls w kind xs c'
  have activated := sendSubscription_active w kind xs c'
  rw [dials.active] at activated
  generalize sendSubscription w kind xs c' = r at calls activated
  obtain ⟨result, final⟩ := r
  obtain ⟨sent, unsent⟩ := activated
  rw [dials.calls, List.append_assoc] at calls
  refine ⟨calls, ?_, sent, ?_, ?_, ?_⟩
  · cases result <;> simp [dials.accepted, List.filterMap_cons, Call.accepted?]
  · rintro e ⟨⟩
    exact ⟨by simp [dials.accepted, Call.accepted?], unsent e rfl⟩
  · simpa [List.filterMap_cons, Call.target?] using dials.connects
  · intro hb
    simp [quiet hb, Call.target?]

end

theorem subscribe_settles {kind : EventKind} {session : Session} {symbols : List String}
    (handler : Handler) (c : Client τ) (h : ¬ Unfit kind session symbols) :
    ∃ made, Settles w kind (wanted kind symbols) c (subscribe w kind session symbols handler c) made := by
  have active : session.isActive = true := by
    rw [← Bool.not_eq_false]
    exact fun inactive => h (.inl inactive)
  obtain ⟨market, empty, -⟩ | ⟨-, xs, named, frame⟩ := subscriptionSymbols_cases kind symbols
  · exact absurd (.inr ⟨market, empty⟩) h
  obtain ⟨made, dials, quiet⟩ := prepared_dials w kind session xs handler c
  rw [subscribe_apply, if_pos active, named, ← frame]
  dsimp only
  generalize ensureConnected w (prepareSubscription kind session xs handler c).2 = result at dials
  rcases result with ⟨e | _, c'⟩
  · exact ⟨made, dials.settles_unconnected quiet _ e⟩
  · exact ⟨_, dials.settles_sent quiet xs⟩

theorem subscribe_refused {kind : EventKind} {session : Session} {symbols : List String}
    (handler : Handler) (c : Client τ) (h : Unfit kind session symbols) :
    ∃ text, subscribe w kind session symbols handler c = (.error (.validation text), c) := by
  rw [subscribe_apply]
  by_cases active : session.isActive = true
  · rw [if_pos active]
    obtain ⟨-, -, refused⟩ | ⟨named, -⟩ := subscriptionSymbols_cases kind symbols
    · rw [refused]
      exact ⟨_, rfl⟩
    · obtain inactive | unnamed := h
      · cases active.symm.trans inactive
      · exact absurd unnamed named
  · rw [if_neg active]
    exact ⟨_, rfl⟩

theorem subscribe_active (kind : EventKind) (session : Session) (symbols : List String)
    (handler : Handler) (c : Client τ) (k : EventKind) :
    (subscribe w kind session symbols handler c).2.dispatcher.registry.active k = true ↔
      c.dispatcher.registry.active k = true ∨
        k = kind ∧ (subscribe w kind session symbols handler c).1 = .ok () := by
  by_cases unfit : Unfit kind session symbols
  · obtain ⟨text, refused⟩ := subscribe_refused w handler c unfit
    simp [refused]
  · obtain ⟨made, settles⟩ := subscribe_settles w handler c unfit
    cases result : (subscribe w kind session symbols handler c).1 with
    | ok =>
      rw [settles.activates result]
      tauto
    | error e =>
      rw [(settles.fails e result).2]
      simp

/-! ## Runs -/

def Succeeds (kind : EventKind) : List Action → Client τ → Prop
  | [], _ => False
  | action :: rest, c =>
    (∃ session symbols handler, action = .subscribe kind session symbols handler ∧
      (subscribe w kind session symbols handler c).1 = .ok ()) ∨
      Succeeds kind rest (act w action c).2

theorem act_active (action : Action) (c : Client τ) (kind : EventKind) :
    (act w action c).2.dispatcher.registry.active kind = true ↔
      c.dispatcher.registry.active kind = true ∨
        ∃ session symbols handler, action = .subscribe kind session symbols handler ∧
          (subscribe w kind session symbols handler c).1 = .ok () := by
  cases hn : subscribes action with
  | false =>
    rw [(act_grown action hn c).active]
    refine ⟨.inl, ?_⟩
    rintro (h | ⟨_, _, _, rfl, -⟩)
    · exact h
    · cases hn
  | true =>
    cases action with
    | subscribe k session symbols handler =>
      show (subscribe w k session symbols handler c).2.dispatcher.registry.active kind = true ↔ _
      rw [subscribe_active]
      constructor
      · rintro (h | ⟨rfl, ok⟩)
        · exact .inl h
        · exact .inr ⟨_, _, _, rfl, ok⟩
      · rintro (h | ⟨_, _, _, same, ok⟩)
        · exact .inl h
        · cases same
          exact .inr ⟨rfl, ok⟩
    | _ => cases hn

theorem after_active (actions : List Action) (c : Client τ) (kind : EventKind) :
    (after w actions c).dispatcher.registry.active kind = true ↔
      c.dispatcher.registry.active kind = true ∨ Succeeds w kind actions c := by
  induction actions generalizing c with
  | nil => simp [after, actAll, Succeeds, pure, StateT.pure]
  | cons action rest ih =>
    rw [after_cons, ih, act_active, Succeeds, or_assoc]

theorem kind_of_replayed {r : Registry} {frame : Frame} (h : frame ∈ r.replayFrames) :
    ∃ kind symbols, frame = .subscription .subscribe kind symbols ∧ r.active kind = true := by
  obtain ⟨kind, hk, rfl⟩ := List.mem_map.1 h
  exact ⟨kind, _, rfl, (List.mem_filter.1 (List.mem_filter.1 hk).1).2⟩

/-- A subscription that is unfit is refused, and the client is as before. Any other succeeds exactly if
the transport accepts one frame of it, the one that is wanted, and then makes the kind active; if it
fails, no frame was accepted and the active kinds are as before. The transport is opened once at most,
and not while the client is connected. What is restored after a run was active before it, or was
subscribed in it with success. -/
theorem subscribe_outcome (kind : EventKind) (session : Session) (symbols : List String)
    (handler : Handler) (c : Client τ) :
    let r := subscribe w kind session symbols handler c
    (Unfit kind session symbols → ∃ text, r = (.error (.validation text), c)) ∧
    (¬ Unfit kind session symbols → ∃ made, Settles w kind (wanted kind symbols) c r made) ∧
    ∀ actions, ∀ frame ∈ (after w actions c).dispatcher.registry.replayFrames, ∃ k xs,
      frame = .subscription .subscribe k xs ∧
        (c.dispatcher.registry.active k = true ∨ Succeeds w k actions c) := by
  refine ⟨subscribe_refused w handler c, subscribe_settles w handler c, ?_⟩
  intro actions frame hf
  obtain ⟨k, xs, about, active⟩ := kind_of_replayed hf
  exact ⟨k, xs, about, (after_active w actions c k).1 active⟩

-- A kind is restored only once a frame of it has been accepted; an empty symbol is left out.
example : (after Playback.world [Playback.subscribe .quote [""], .reconnect,
    Playback.subscribe .trade ["", "SPY"], .reconnect] (Playback.client .succeeds)).calls.filterMap
      Call.accepted? = [.subscribe .trade ["SPY"], .subscribe .trade ["SPY"]] := by cbv

end MarketFeed.Client
