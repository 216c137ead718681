import Mathlib
import MarketFeed.Proofs.Step

/-!
# Active kinds on the open connection

A transport that was just opened has nothing subscribed on it. Reconnecting sends the frames that
restore the active kinds; a connect, also the one that subscribing makes for itself, does not. `owes`
follows a run and keeps the kinds for which that is still to be made up. Every other active kind was
subscribed on the connection that is open, and none that is owed was.
-/

namespace MarketFeed

def Registry.replays (r : Registry) (kind : EventKind) : Bool :=
  kind.isAccount || !r.symbols.isEmpty

theorem Registry.mem_replayFrames {r : Registry} {kind : EventKind} (ha : r.active kind = true)
    (h : r.replays kind = true) : .subscribe kind r.symbols.toList ∈ r.replayFrames :=
  List.mem_map.2 ⟨kind, List.mem_filter.2 ⟨List.mem_filter.2 ⟨kind.mem_all, ha⟩, h⟩, rfl⟩

theorem Registry.Allows.replays {r : Registry} {kind : EventKind} {xs : Option (List String)}
    {frame : Frame} (h : r.Allows frame) (hf : frame = .subscription .subscribe kind xs) :
    r.replays kind = true := by
  cases h with
  | unsubscribe => cases hf
  | @subscribe k ys ha hx hm =>
    obtain rfl : k = kind := (Frame.subscription.inj hf).2.1
    unfold Registry.replays
    cases hk : k.isAccount with
    | true => rfl
    | false =>
      obtain ⟨x, hy⟩ := List.exists_mem_of_ne_nil ys (hm hk)
      have some : r.symbols.isEmpty = false := List.isEmpty_eq_false_iff_exists_mem.2 ⟨x, hx x hy⟩
      rw [some]
      rfl

namespace Client

open Log

variable {τ : Type} (w : World τ)

def reopened (c c' : Client τ) : Bool := openings c.calls < openings c'.calls

/-- Whether an action subscribes a kind on the connection that is open after it. -/
def serves (action : Action) (c : Client τ) (kind : EventKind) : Bool :=
  match action, (act w action c).1 with
  | .subscribe k .., .result (.ok _) => kind = k
  | .addSymbols _, .symbols added => !added.isEmpty && (isConnected w c).1 && !kind.isAccount
  | .reconnect, _ | .reconnectWithBackoff .., _ =>
    reopened c (act w action c).2 && c.dispatcher.registry.replays kind
  | _, _ => false

def missing (c c' : Client τ) (owed : EventKind → Bool) (kind : EventKind) : Bool :=
  if reopened c c' then c.dispatcher.registry.active kind else owed kind

/-- The kinds that are owed after an action: those that were before it, or all that were active if
it opened the transport, but none that it serves. -/
def owes (action : Action) (c : Client τ) (owed : EventKind → Bool) (kind : EventKind) : Bool :=
  missing c (act w action c).2 owed kind && !serves w action c kind

def owedAfter : List Action → Client τ → (EventKind → Bool) → EventKind → Bool
  | [], _, owed => owed
  | action :: rest, c, owed => owedAfter rest (act w action c).2 (owes w action c owed)

/-! ## What a step keeps -/

/-- Unless the transport was opened in between, what was subscribed on it still is. -/
structure Grown (c c' : Client τ) : Prop where
  active : c'.dispatcher.registry.active = c.dispatcher.registry.active
  opens : openings c.calls ≤ openings c'.calls
  stays : openings c'.calls = openings c.calls → (c'.phase = .connected → c.phase = .connected) ∧
    ∀ kind, carries c.calls kind = true → carries c'.calls kind = true

section
variable {w} {c c' c'' : Client τ}

theorem not_reopened (g : Grown c c') (h : ¬ reopened c c' = true) :
    openings c'.calls = openings c.calls := by
  have := g.opens
  simp only [reopened, decide_eq_true_eq] at h
  omega

theorem Grown.refl (c : Client τ) : Grown c c := ⟨rfl, Nat.le_refl _, fun _ => ⟨id, fun _ => id⟩⟩

theorem Grown.trans (g : Grown c c') (g' : Grown c' c'') : Grown c c'' := by
  refine ⟨g'.active.trans g.active, Nat.le_trans g.opens g'.opens, fun h => ?_⟩
  have := g.opens
  have := g'.opens
  obtain ⟨hp, hc⟩ := g.stays (by omega)
  obtain ⟨hp', hc'⟩ := g'.stays (by omega)
  exact ⟨hp ∘ hp', fun kind => hc' kind ∘ hc kind⟩

theorem Notes.grown (n : Notes c c') : Grown c c' := by
  obtain ⟨ha, ⟨hc, hp⟩ | ⟨call, hc, hp, -⟩⟩ := n
  · exact ⟨ha, Nat.le_of_eq (by rw [hc]), fun _ => ⟨fun h => hp ▸ h, fun kind h => hc ▸ h⟩⟩
  · refine ⟨ha, by rw [hc, openings_snoc]; omega, fun ho => ?_⟩
    rw [hc, openings_snoc] at ho
    have closed : call.isOpening = false := by
      cases hn : call.isOpening with
      | false => rfl
      | true => rw [hn, if_pos rfl] at ho; omega
    refine ⟨fun h => (hp h).resolve_left (by simp [closed]), fun kind h => ?_⟩
    rw [hc, carries_snoc, closed, h]
    rfl

theorem grown_along (path : Relation.ReflTransGen Notes c c') : Grown c c' :=
  kept_along (I := Grown c) (fun _ _ n g => g.trans n.grown) path (.refl c)

theorem LineStep.grown_along (path : Relation.ReflTransGen (LineStep w) c c') : Grown c c' :=
  Client.grown_along (Relation.ReflTransGen.mono (fun _ _ s => s.notes) _ _ path)

theorem act_grown (action : Action) (h : subscribes action = false) (c : Client τ) :
    Grown c (act w action c).2 :=
  kept_along (I := Grown c) (fun _ _ s g => g.trans (grown_along s.notes))
    (act_plain w h c trivial).1 (.refl c)

/-! ## What a step adds -/

def Hushed (c c' : Client τ) : Prop :=
  ∀ kind, carries c'.calls kind = true →
    openings c'.calls = openings c.calls ∧ carries c.calls kind = true

theorem Hushed.of_calls (hc : c'.calls = c.calls) : Hushed c c' :=
  fun _ hk => hc ▸ ⟨rfl, hc ▸ hk⟩

theorem Hushed.trans (h : Hushed c c') (h' : Hushed c' c'') : Hushed c c'' := by
  intro kind hk
  obtain ⟨ho', hk'⟩ := h' kind hk
  obtain ⟨ho, hk⟩ := h kind hk'
  exact ⟨ho'.trans ho, hk⟩

theorem Noted.hushed (h : Noted Frame.IsHeartbeat c c') : Hushed c c' := by
  obtain ⟨hc, -⟩ | ⟨call, hc, -, hs⟩ := h
  · exact .of_calls hc
  intro kind hk
  rw [hc, carries_snoc, Bool.and_eq_true, Bool.or_eq_true, Bool.not_eq_true'] at hk
  obtain ⟨ho, hk | hk⟩ := hk
  · rw [hc, openings_snoc, ho]
    exact ⟨rfl, hk⟩
  · obtain ⟨xs, r, rfl⟩ := Call.sent_of_subscribes hk
    obtain ⟨t, ht⟩ := hs _ _ rfl
    cases ht

theorem Setup.hushed (s : Setup (Link w) c c') : Hushed c c' := by
  cases s with
  | base s => exact s.noted.2.hushed
  | arrange => exact .of_calls rfl
  | add => exact .of_calls rfl

theorem removeSymbols_hushed (xs : List String) (c : Client τ) :
    Hushed c (removeSymbols w xs c).2 := by
  let removed := (c.dispatcher.registry.removeSymbols xs).1
  let stored : Client τ := (sampleSymbols (withRegistry (·.removeSymbols xs) c).2).2
  obtain ⟨sent, hs, hl⟩ := sendForMarketKinds_calls w removed .unsubscribe stored
  have result : (removeSymbols w xs c).2.calls = c.calls ++ sent.map fun s => .send s.1 s.2 := hl
  intro kind hk
  rw [result, carries_append isOpening_of_sent, Bool.or_eq_true] at hk
  rw [result, openings_append isOpening_of_sent]
  refine ⟨rfl, hk.resolve_right fun hk => ?_⟩
  obtain ⟨ys, listed⟩ := mem_of_subscribes hk
  rw [hs] at listed
  by_cases hx : removed ≠ [] ∧ (isConnected w stored).1 = true
  · rw [if_pos hx] at listed
    obtain ⟨k, -, hf⟩ := List.mem_map.1 listed
    cases hf
  · rw [if_neg hx] at listed
    cases listed

def announces : Action → Bool
  | .subscribe .. | .addSymbols _ | .reconnect | .reconnectWithBackoff .. => true
  | _ => false

theorem act_hushed {action : Action} (h : announces action = false) (c : Client τ) :
    Hushed c (act w action c).2 := by
  have along {α : Type} {m : Op τ α} {f : α → Answer} {Q : α → Client τ → Prop}
      (h : Walks (Link w) (fun _ => True) m Q) :
      Hushed c ((m >>= fun a => pure (f a) : Op τ Answer) c).2 :=
    kept_along (I := Hushed c) (fun _ _ s h => h.trans s.noted.2.hushed) (h c trivial).1 (.of_calls rfl)
  cases action with
  | elapse d => exact along ((sleep_idles w d).mono fun _ _ => .idle)
  | connect => exact along (connect_walks w)
  | disconnect => exact (Link.close (w := w) c).noted.2.hushed
  | removeSymbols xs => exact removeSymbols_hushed xs c
  | createSession kind =>
    show Hushed c (createSession w kind c).2
    rw [createSession_apply]
    cases c.sessions with
    | none => exact .of_calls rfl
    | some => exact Noted.hushed (.inr ⟨_, rfl, .inr, fun _ _ e => by cases e⟩)
  | receive text => exact .of_calls (receive_calls text c)
  | subscribe => cases h
  | addSymbols => cases h
  | reconnect => cases h
  | reconnectWithBackoff => cases h
  | _ => exact .of_calls rfl

end

/-! ## Restored subscriptions -/

def Replayed (c : Client τ) : Prop :=
  ∀ frame ∈ c.dispatcher.registry.replayFrames, ∃ r, .send frame r ∈ current c.calls

theorem sendAll_current {frames : List Frame} (c : Client τ) {frame : Frame} (hf : frame ∈ frames) :
    ∃ r, .send frame r ∈ current (sendAll w frames c).2.calls := by
  obtain ⟨sent, hs, hl⟩ := sendAll_calls w frames c
  obtain ⟨s, hm, rfl⟩ := List.mem_map.1 (hs ▸ hf)
  rw [hl, current_append isOpening_of_sent]
  exact ⟨s.2, List.mem_append_right _ (List.mem_map.2 ⟨s, hm, rfl⟩)⟩

theorem restore_replays :
    Walks (LineStep w) (fun c => c.phase = .connected) (restore w) fun _ => Replayed := by
  intro c hc
  refine ⟨(restore_walks w c hc).1, fun frame hf => ?_⟩
  let counted : Client τ := (sample .reconnect (modifyJournal (·.modifyStatistics (·.countReconnect)) c).2).2
  have result : (restore w c).2 = (sendAll w c.dispatcher.registry.replayFrames counted).2 := rfl
  rw [result, sendAll_registry] at hf
  exact result ▸ sendAll_current w counted hf

theorem Idle.openings {c c' : Client τ} (s : Idle w c c') : openings c'.calls = openings c.calls := by
  obtain ⟨-, -, hc | ⟨t, hc | ⟨r, hc⟩⟩⟩ := s.calls
  · rw [hc]
  all_goals
    rw [hc, openings_snoc, if_neg nofun, Nat.add_zero]

theorem Idle.replayed {c c' : Client τ} (s : Idle w c c') (h : Replayed c) : Replayed c' := by
  obtain ⟨hr, -, hc | ⟨t, hc | ⟨r, hc⟩⟩⟩ := s.calls
  · unfold Replayed
    rw [hr, hc]
    exact h
  all_goals
    intro frame hf
    obtain ⟨r, hm⟩ := h frame (hr ▸ hf)
    rw [hc, current_snoc, if_neg nofun]
    exact ⟨r, List.mem_append_left _ hm⟩

theorem carries_of_sent {c : Client τ} (hu : Unrefused .subscribe c) {kind : EventKind}
    {xs : List String} {r : Except FeedError Unit}
    (hm : .send (.subscribe kind xs) r ∈ current c.calls) : carries c.calls kind = true := by
  cases r with
  | ok => exact carries_of_mem hm
  | error e => cases hu _ (current_subset _ hm)

theorem replayed_carries {c : Client τ} (h : Replayed c) (hu : Unrefused .subscribe c)
    {kind : EventKind} (ha : c.dispatcher.registry.active kind = true)
    (hr : c.dispatcher.registry.replays kind = true) : carries c.calls kind = true := by
  obtain ⟨r, hm⟩ := h _ (Registry.mem_replayFrames ha hr)
  exact carries_of_sent hu hm

/-- Since the transport was opened that often, only kinds that replaying covers were subscribed. -/
def Confined (opened : Nat) (c : Client τ) : Prop :=
  openings c.calls = opened ∨
    ∀ kind, carries c.calls kind = true → c.dispatcher.registry.replays kind = true

theorem LineStep.confined {opened : Nat} {c c' : Client τ} (s : LineStep w c c')
    (h : Confined opened c) : Confined opened c' := by
  unfold Confined
  rw [s.registry]
  obtain ⟨hc, -⟩ | ⟨call, hc, -, hs⟩ := s.noted.2
  · exact hc ▸ h
  simp only [hc, openings_snoc, carries_snoc]
  cases ho : call.isOpening with
  | true => exact .inr fun kind hk => nomatch hk
  | false =>
    refine h.imp id fun h kind hk => ?_
    obtain hk | hk := (Bool.or_eq_true _ _).mp hk
    · exact h kind hk
    · obtain ⟨xs, r, rfl⟩ := Call.sent_of_subscribes hk
      obtain ⟨t, ht⟩ | allowed := hs _ _ rfl
      · cases ht
      · exact allowed.replays rfl

def Renewed (c c' : Client τ) : Prop :=
  c'.phase = .connected →
    reopened c c' = true ∧ Replayed c' ∨ reopened c c' = false ∧ Hushed c c'

theorem reconnectAfter_reopens (delay : Duration) (c : Client τ)
    (hp : (reconnectAfter w delay c).2.phase = .connected) :
    openings c.calls < openings (reconnectAfter w delay c).2.calls := by
  have path : Relation.ReflTransGen (LineStep w) (teardown w c).2 (reconnectAfter w delay c).2 :=
    (reopen_walks w (fun _ _ => .link) (restore_walks w) delay (teardown w c).2 (teardown_phase w c)).1
  have grown := LineStep.grown_along path
  have same : openings (teardown w c).2.calls = openings c.calls := by
    rw [teardown_apply, openings_snoc]
    rfl
  -- The client was closed first, and nothing but an opening connects it.
  have more : openings (reconnectAfter w delay c).2.calls ≠ openings (teardown w c).2.calls :=
    fun h => teardown_phase w c ((grown.stays h).1 hp)
  have := grown.opens
  omega

theorem reconnectAfter_replays (delay : Duration) (c : Client τ) :
    (reconnectAfter w delay c).2.phase = .connected → Replayed (reconnectAfter w delay c).2 :=
  (reconnectAfter_walks w (fun _ _ => .link) (restore_replays w) delay c trivial).2

theorem reconnectAfter_renewed (delay : Duration) (c : Client τ) :
    Renewed c (reconnectAfter w delay c).2 := fun hp =>
  .inl ⟨decide_eq_true (reconnectAfter_reopens w delay c hp), reconnectAfter_replays w delay c hp⟩

theorem reconnectWithBackoff_renewed (cancellation : Cancellation) (rounds : Nat) (c : Client τ) :
    Renewed c (reconnectWithBackoff w cancellation rounds c).2 := by
  -- Until the first attempt only heartbeats are sent; after it a connection has been restored.
  let I : Client τ → Prop := fun c' => openings c.calls ≤ openings c'.calls ∧ Renewed c c'
  have idle : ∀ c₁ c₂, Idle w c₁ c₂ → I c₁ → I c₂ := by
    rintro c₁ c₂ s ⟨ho, h⟩
    have opens := s.openings w
    refine ⟨opens ▸ ho, fun hp => ?_⟩
    have same : reopened c c₂ = reopened c c₁ := by unfold reopened; rw [opens]
    rw [same]
    exact (h ((s.calls w).2.1 ▸ hp)).imp (fun h => ⟨h.1, s.replayed w h.2⟩)
      fun h => ⟨h.1, h.2.trans s.noted.2.hushed⟩
  have once : ∀ delay, Walks (LineStep w) I (reconnectAfter w delay) fun _ => I := by
    intro delay c₁ h
    have path := (reconnectAfter_lines w delay c₁ trivial).1
    refine ⟨path, Nat.le_trans h.1 (LineStep.grown_along path).opens, fun hp => .inl ⟨?_, ?_⟩⟩
    · exact decide_eq_true (Nat.lt_of_le_of_lt h.1 (reconnectAfter_reopens w delay c₁ hp))
    · exact reconnectAfter_replays w delay c₁ hp
  have start : I c := by
    refine ⟨Nat.le_refl _, fun _ => .inr ⟨?_, .of_calls rfl⟩⟩
    exact decide_eq_false (Nat.lt_irrefl _)
  exact (reconnectWithBackoff_walks w (fun _ _ => .link) idle once cancellation rounds c start).2.2

/-! ## Added symbols -/

theorem addSymbols_opens (xs : List String) (c : Client τ) :
    openings (addSymbols w xs c).2.calls = openings c.calls := by
  obtain ⟨sent, -, hl⟩ := sendForMarketKinds_calls w (c.dispatcher.registry.addSymbols xs).1 .subscribe
    (sampleSymbols (withRegistry (·.addSymbols xs) c).2).2
  exact (congrArg openings hl).trans (openings_append isOpening_of_sent)

theorem addSymbols_carries {xs : List String} {c : Client τ}
    (hu : Unrefused .subscribe (addSymbols w xs c).2) {kind : EventKind}
    (ha : c.dispatcher.registry.active kind = true) :
    carries (addSymbols w xs c).2.calls kind = (carries c.calls kind ||
      (!(addSymbols w xs c).1.isEmpty && (isConnected w c).1 && !kind.isAccount)) := by
  let added := (addSymbols w xs c).1
  let stored : Client τ := (sampleSymbols (withRegistry (·.addSymbols xs) c).2).2
  obtain ⟨sent, hs, hl⟩ := sendForMarketKinds_calls w added .subscribe stored
  have result : (addSymbols w xs c).2.calls = c.calls ++ sent.map fun s => .send s.1 s.2 := hl
  have connected : (isConnected w stored).1 = (isConnected w c).1 :=
    Bool.eq_iff_iff.2 ((isConnected_iff w stored).trans (isConnected_iff w c).symm)
  rw [connected] at hs
  rw [result, carries_append isOpening_of_sent]
  congr 1
  rw [Bool.eq_iff_iff]
  constructor
  · intro hk
    obtain ⟨ys, listed⟩ := mem_of_subscribes hk
    rw [hs] at listed
    by_cases hx : added ≠ [] ∧ (isConnected w c).1 = true
    · rw [if_pos hx] at listed
      obtain ⟨k, hm, hf⟩ := List.mem_map.1 listed
      obtain rfl : k = kind := (Frame.subscription.inj hf).2.1
      have market := (Registry.mem_activeMarketKinds.1 hm).2
      simpa [market, hx.2] using hx.1
    · rw [if_neg hx] at listed
      cases listed
  · intro served
    simp only [Bool.and_eq_true, Bool.not_eq_true', List.isEmpty_eq_false_iff] at served
    obtain ⟨served, hm⟩ := served
    rw [if_pos served] at hs
    have framed : Frame.subscribe kind added ∈ sent.map Prod.fst :=
      hs ▸ List.mem_map_of_mem (f := fun k => Frame.subscribe k added)
        (Registry.mem_activeMarketKinds.2 ⟨ha, hm⟩)
    obtain ⟨⟨frame, r⟩, hm, rfl⟩ := List.mem_map.1 framed
    have sentCall := List.mem_map_of_mem (f := fun s : Frame × Except FeedError Unit => Call.send s.1 s.2) hm
    refine List.any_eq_true.2 ⟨_, sentCall, ?_⟩
    cases r with
    | ok => exact decide_eq_true rfl
    | error e => cases hu _ (result ▸ List.mem_append_right _ sentCall)

/-! ## Runs -/

def Covered (owed : EventKind → Bool) (c : Client τ) : Prop :=
  c.phase = .connected → ∀ kind, c.dispatcher.registry.active kind = true →
    carries c.calls kind = !owed kind

section
variable {w} {owed : EventKind → Bool} {c c' : Client τ} (h : Covered owed c) (g : Grown c c')
include h g

theorem Covered.of_hushed (s : Hushed c c') : Covered (missing c c' owed) c' := by
  intro hp kind ha
  rw [g.active] at ha
  unfold missing
  by_cases hr : reopened c c' = true
  · rw [if_pos hr, ha]
    cases hc : carries c'.calls kind with
    | false => rfl
    | true => exact absurd (s kind hc).1 (Nat.ne_of_gt (of_decide_eq_true hr))
  · rw [if_neg hr]
    obtain ⟨hp', hc⟩ := g.stays (not_reopened g hr)
    rw [← h (hp' hp) kind ha]
    exact Bool.eq_iff_iff.2 ⟨fun hk => (s kind hk).2, hc kind⟩

theorem Covered.of_renewed (n : Renewed c c') (f : Confined (openings c.calls) c')
    (hr : c'.dispatcher.registry = c.dispatcher.registry) (hu : Unrefused .subscribe c') :
    Covered (fun kind => missing c c' owed kind &&
      !(reopened c c' && c.dispatcher.registry.replays kind)) c' := by
  intro hp kind ha
  dsimp only
  obtain ⟨ho, replayed⟩ | ⟨ho, hushed⟩ := n hp
  · have confined := f.resolve_left (Nat.ne_of_gt (of_decide_eq_true ho))
    have carried : carries c'.calls kind = c'.dispatcher.registry.replays kind :=
      Bool.eq_iff_iff.2 ⟨confined kind, replayed_carries replayed hu ha⟩
    rw [carried, missing, if_pos ho, ← hr, ha, ho, Bool.true_and, Bool.true_and, Bool.not_not]
  · rw [ho, Bool.false_and, Bool.not_false, Bool.and_true]
    exact h.of_hushed g hushed hp kind ha

theorem Covered.of_sent {c'' : Client τ} {k : EventKind} {xs : List String} (s : Hushed c c')
    (hp : c'.phase = .connected)
    (hc : c''.calls = c'.calls ++ [.send (.subscribe k xs) (.ok ⟨⟩)])
    (hr : c''.dispatcher.registry = c'.dispatcher.registry.activate k) :
    Covered (fun kind => missing c c'' owed kind && !decide (kind = k)) c'' := by
  intro _ kind ha
  dsimp only
  have opens : openings c''.calls = openings c'.calls := by
    rw [hc, openings_snoc, if_neg nofun, Nat.add_zero]
  have carried : carries c''.calls kind = (carries c'.calls kind || decide (k = kind)) := by
    rw [hc, carries_snoc]
    rfl
  rw [carried, missing, reopened, opens]
  by_cases hk : kind = k
  · subst hk
    simp
  · rw [hr] at ha
    have before : c'.dispatcher.registry.active kind = true := (if_neg hk).symm.trans ha
    rw [h.of_hushed g s hp kind before, decide_eq_false hk, decide_eq_false (Ne.symm hk),
      Bool.or_false, Bool.not_false, Bool.and_true]
    rfl

end

theorem registry_along {c c' : Client τ} (path : Relation.ReflTransGen (LineStep w) c c') :
    c'.dispatcher.registry = c.dispatcher.registry :=
  kept_along (I := fun c' => c'.dispatcher.registry = c.dispatcher.registry)
    (fun _ _ s h => s.registry.trans h) path rfl

theorem renewed_covered {owed : EventKind → Bool} {c c' : Client τ} (h : Covered owed c)
    (path : Relation.ReflTransGen (LineStep w) c c') (n : Renewed c c')
    (hu : Unrefused .subscribe c') :
    Covered (fun kind => missing c c' owed kind &&
      !(reopened c c' && c.dispatcher.registry.replays kind)) c' :=
  h.of_renewed (LineStep.grown_along path) n
    (kept_along (I := Confined (openings c.calls)) (fun _ _ s => s.confined w) path (.inl rfl))
    (registry_along w path) hu

theorem addSymbols_covered (xs : List String) {owed : EventKind → Bool} {c : Client τ}
    (h : Covered owed c) (hu : Unrefused .subscribe (addSymbols w xs c).2) :
    Covered (owes w (.addSymbols xs) c owed) (addSymbols w xs c).2 := by
  have grown : Grown c (addSymbols w xs c).2 := act_grown (.addSymbols xs) rfl c
  have opens := addSymbols_opens w xs c
  intro hp kind ha
  rw [grown.active] at ha
  have shut : reopened c (act w (.addSymbols xs) c).2 = false :=
    decide_eq_false (Nat.not_lt_of_le (Nat.le_of_eq opens))
  rw [addSymbols_carries w hu ha, h ((grown.stays opens).1 hp) kind ha, owes, missing, shut,
    if_neg Bool.false_ne_true, Bool.not_and, Bool.not_not]
  rfl

theorem serves_subscribe (k : EventKind) (session : Session) (symbols : List String)
    (handler : Handler) (c : Client τ) (kind : EventKind) :
    serves w (.subscribe k session symbols handler) c kind =
      match (subscribe w k session symbols handler c).1 with
      | .ok _ => decide (kind = k)
      | .error _ => false := by
  have answer : (act w (.subscribe k session symbols handler) c).1 =
      .result (subscribe w k session symbols handler c).1 := rfl
  unfold serves
  rw [answer]
  cases (subscribe w k session symbols handler c).1 <;> rfl

theorem subscribe_covered (k : EventKind) (session : Session) (symbols : List String)
    (handler : Handler) {owed : EventKind → Bool} {c : Client τ} (h : Covered owed c)
    (hu : Unrefused .subscribe (subscribe w k session symbols handler c).2) :
    Covered (owes w (.subscribe k session symbols handler) c owed)
      (subscribe w k session symbols handler c).2 := by
  obtain ⟨c', path, split⟩ := subscribe_splits w k session symbols handler c
  have grown : Grown c c' :=
    grown_along (Relation.ReflTransGen.mono (fun _ _ s => (s.mono fun _ _ => .link).notes) _ _ path)
  have hushed : Hushed c c' :=
    kept_along (I := Hushed c) (fun _ _ s h => h.trans s.hushed) path (.of_calls rfl)
  intro hp kind ha
  have result : (act w (.subscribe k session symbols handler) c).2 =
    (subscribe w k session symbols handler c).2 := rfl
  rw [owes, serves_subscribe, result]
  obtain ⟨e, he⟩ | ⟨xs, hp', -, he⟩ := split
  · rw [he] at hp ha ⊢
    rw [Bool.not_false, Bool.and_true]
    exact h.of_hushed grown hushed hp kind ha
  · rw [he] at hp ha hu ⊢
    rw [sendSubscription_apply] at hp ha hu ⊢
    rcases hs : w.send (.subscribe k xs) c'.world with ⟨e | _, s⟩
    · rw [hs] at hu
      cases hu _ (List.mem_append_right _ List.mem_cons_self)
    · rw [hs] at hp ha
      exact h.of_sent grown hushed hp' rfl rfl hp kind ha

theorem act_covered (action : Action) {owed : EventKind → Bool} {c : Client τ} (h : Covered owed c)
    (hu : Unrefused .subscribe (act w action c).2) :
    Covered (owes w action c owed) (act w action c).2 := by
  cases hn : announces action with
  | true =>
    cases action with
    | subscribe k session symbols handler => exact subscribe_covered w k session symbols handler h hu
    | addSymbols xs => exact addSymbols_covered w xs h hu
    | reconnect =>
      exact renewed_covered w h (reconnectAfter_lines w c.settings.reconnectDelay c trivial).1
        (reconnectAfter_renewed w _ c) hu
    | reconnectWithBackoff cancellation rounds =>
      exact renewed_covered w h (reconnectWithBackoff_walks w (fun _ _ => .link) (fun _ _ _ h => h)
        (reconnectAfter_lines w) cancellation rounds c trivial).1
        (reconnectWithBackoff_renewed w cancellation rounds c) hu
    | _ => cases hn
  | false =>
    have still : subscribes action = false ∧ owes w action c owed = missing c (act w action c).2 owed := by
      cases action <;> first
        | exact ⟨rfl, funext fun kind => Bool.and_true _⟩
        | cases hn
    rw [still.2]
    exact h.of_hushed (act_grown action still.1 c) (act_hushed hn c)

theorem after_covered (actions : List Action) {owed : EventKind → Bool} {c : Client τ}
    (h : Covered owed c) (hu : Unrefused .subscribe (after w actions c)) :
    Covered (owedAfter w actions c owed) (after w actions c) := by
  induction actions generalizing c owed with
  | nil => exact h
  | cons action rest ih =>
    have first := hu.of_grows (after_grows w rest (act w action c).2)
    exact ih (act_covered w action h first) hu

/-- While a client is connected, an active kind was subscribed on the connection that is open if and
only if it is not owed. Replaying is about active kinds, so this holds of each kind that it would
cover. -/
theorem active_kinds_subscribed (world : τ) (settings : StreamSettings)
    (sessions : Option SessionSettings) (token : String) (runtime : Runtime) (actions : List Action)
    (hu : Unrefused .subscribe (after w actions (create world settings sessions token runtime)))
    (hc : (isConnected w (after w actions (create world settings sessions token runtime))).1 = true) :
    let start := create world settings sessions token runtime
    let final := after w actions start
    ∀ kind, final.dispatcher.registry.active kind = true →
      (carries final.calls kind = true ↔ owedAfter w actions start (fun _ => false) kind = false) := by
  intro start final kind ha
  have covered : Covered (fun _ => false) start := fun h => nomatch h
  rw [after_covered w actions covered hu ((isConnected_iff w final).1 hc).1 kind ha, Bool.not_eq_true']

def makingUp : List Action :=
  [Playback.subscribe .trade ["SPY"], Playback.subscribe .order [], .disconnect, .connect,
    .addSymbols ["QQQ"]]

theorem active_kinds_subscribed_added :
    Unrefused .subscribe (after Playback.world makingUp (Playback.client .succeeds)) ∧
    (isConnected Playback.world (after Playback.world makingUp (Playback.client .succeeds))).1 = true ∧
    (after Playback.world makingUp (Playback.client .succeeds)).dispatcher.registry.active .order =
      true ∧
    carries (after Playback.world makingUp (Playback.client .succeeds)).calls .order = false ∧
    (after Playback.world makingUp (Playback.client .succeeds)).dispatcher.registry.active .trade =
      true ∧
    (carries (after Playback.world makingUp (Playback.client .succeeds)).calls .trade = true ↔
      owedAfter Playback.world makingUp (Playback.client .succeeds) (fun _ => false) .trade = false) ∧
    owedAfter Playback.world makingUp (Playback.client .succeeds) (fun _ => false) .trade = false := by
  have unrefused : Unrefused .subscribe
      (after Playback.world makingUp (Playback.client .succeeds)) := by
    have all : (after Playback.world makingUp (Playback.client .succeeds)).calls.all
        (!·.refuses .subscribe) = true := by cbv
    exact fun call hm => by simpa using List.all_eq_true.1 all call hm
  have connected : (isConnected Playback.world
      (after Playback.world makingUp (Playback.client .succeeds))).1 = true := by cbv
  have active : (after Playback.world makingUp
      (Playback.client .succeeds)).dispatcher.registry.active .trade = true := by cbv
  refine ⟨unrefused, connected, by cbv, by cbv, active, ?_, by cbv⟩
  have start : Playback.client .succeeds = create { now := .earliest } {} none "" .singleThread := rfl
  rw [start] at unrefused connected active ⊢
  exact active_kinds_subscribed Playback.world { now := .earliest } {} none "" .singleThread makingUp
    unrefused connected .trade active

def LeftBehind (actions : List Action) : Prop :=
  let final := after Playback.world actions (Playback.client .succeeds)
  (isConnected Playback.world final).1 = true ∧
    final.dispatcher.registry.replayFrames.contains (.subscribe .trade ["SPY"]) = true ∧
    final.calls.all (fun call => !call.refuses .subscribe && !call.refuses .unsubscribe) = true ∧
    carries final.calls .trade = false

/-- There was no symbol to replay a kind for when the transport was opened, or a connect opened it,
or a subscription to another kind did. -/
theorem replayed_kind_not_subscribed :
    LeftBehind [Playback.subscribe .trade ["SPY"], .removeSymbols ["SPY"], .reconnect,
      Playback.subscribe .quote ["SPY"]] ∧
    LeftBehind [Playback.subscribe .trade ["SPY"], .disconnect, .connect] ∧
    LeftBehind [Playback.subscribe .trade ["SPY"], .disconnect, Playback.subscribe .quote ["SPY"]] := by
  refine ⟨?_, ?_, ?_⟩
  · exact ⟨by cbv, by cbv, by cbv, by cbv⟩
  · exact ⟨by cbv, by cbv, by cbv, by cbv⟩
  · exact ⟨by cbv, by cbv, by cbv, by cbv⟩

end Client

end MarketFeed
