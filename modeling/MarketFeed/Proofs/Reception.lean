import Mathlib
import MarketFeed.Proofs.Balance
import MarketFeed.Proofs.Step

/-!
# Reception

Whether texts that come in are received is settled by the latest connect or disconnect. A connect
lets them in before the transport is open, and when it fails it does not shut them out again: the
client is disconnected then, and still receives.
-/

namespace MarketFeed

namespace Call

def isDial : Call → Bool
  | connect .. | disconnect => true
  | _ => false

def standing : Call → Phase × Bool
  | connect _ _ (.ok _) => (.connected, true)
  | connect _ _ (.error _) => (.disconnected, true)
  | _ => (.disconnected, false)

end Call

namespace Log

def standing (log : List Call) : Phase × Bool :=
  log.foldl (fun standing call => if call.isDial then call.standing else standing)
    (.disconnected, false)

theorem standing_snoc (log : List Call) (call : Call) :
    standing (log ++ [call]) = if call.isDial then call.standing else standing log := by
  unfold standing
  rw [List.foldl_append]
  rfl

theorem standing_append {log more : List Call} (h : ∀ call ∈ more, call.isDial = false) :
    standing (log ++ more) = standing log := by
  induction more using List.reverseRecOn with
  | nil => rw [List.append_nil]
  | append_singleton more last ih =>
    have hl : last.isDial = false := h last (by simp)
    rw [← List.append_assoc, standing_snoc, hl, ih fun call hm => h call (by simp [hm])]
    rfl

def Refused (log : List Call) : Prop :=
  ∃ before held target e since, log = before ++ .connect held target (.error e) :: since ∧
    ∀ call ∈ since, call.isDial = false

theorem Refused.standing {log : List Call} (h : Refused log) :
    standing log = (.disconnected, true) := by
  obtain ⟨before, held, target, e, since, rfl, hs⟩ := h
  rw [List.append_cons, standing_append hs, standing_snoc]
  rfl

theorem Refused.snoc {log : List Call} {call : Call} (h : Refused log) (hc : call.isDial = false) :
    Refused (log ++ [call]) := by
  obtain ⟨before, held, target, e, since, rfl, hs⟩ := h
  refine ⟨before, held, target, e, since ++ [call], by simp, fun c hm => ?_⟩
  obtain hm | hm := List.mem_append.1 hm
  · exact hs c hm
  · exact List.mem_singleton.1 hm ▸ hc

theorem standing_cases (log : List Call) :
    standing log = (.connected, true) ∨ standing log = (.disconnected, true) ∧ Refused log ∨
      standing log = (.disconnected, false) := by
  -- From the end of the log: a dial alone decides, and any other call changes nothing.
  induction log using List.reverseRecOn with
  | nil => exact .inr (.inr rfl)
  | append_singleton log call ih =>
    rw [standing_snoc]
    by_cases hd : call.isDial = true
    · rw [if_pos hd]
      cases call with
      | connect held target result =>
        cases result with
        | ok => exact .inl rfl
        | error e =>
          refine .inr (.inl ⟨rfl, log, held, target, e, [], rfl, ?_⟩)
          exact fun _ hm => absurd hm List.not_mem_nil
      | disconnect => exact .inr (.inr rfl)
      | _ => cases hd
    · rw [if_neg hd]
      obtain h | ⟨h, hr⟩ | h := ih
      · exact .inl h
      · exact .inr (.inl ⟨h, hr.snoc (Bool.not_eq_true _ ▸ hd)⟩)
      · exact .inr (.inr h)

end Log

namespace Client

variable {τ : Type} (w : World τ)

inductive Switch (c c' : Client τ) : Prop
  | quiet (hc : c'.calls = c.calls) (hs : (c'.phase, c'.receiving) = (c.phase, c.receiving))
  | called {call : Call} (hc : c'.calls = c.calls ++ [call]) (hd : call.isDial = false)
      (hs : (c'.phase, c'.receiving) = (c.phase, c.receiving))
  | dialled {call : Call} (hc : c'.calls = c.calls ++ [call]) (hd : call.isDial = true)
      (hs : (c'.phase, c'.receiving) = call.standing)

def Settled (c : Client τ) : Prop := (c.phase, c.receiving) = Log.standing c.calls

section
variable {w} {c c' : Client τ}

theorem Switch.settled (s : Switch c c') (h : Settled c) : Settled c' := by
  unfold Settled
  cases s with
  | quiet hc hs => rw [hc, hs, h]
  | called hc hd hs => rw [hc, Log.standing_snoc, hd, hs, h]; rfl
  | dialled hc hd hs => rw [hc, Log.standing_snoc, if_pos hd, hs]

/-! ## Steps -/

theorem Idle.switch (s : Idle w c c') : Switch c c' := by
  cases s with
  | ask => exact .quiet rfl rfl
  | pass => exact .quiet rfl rfl
  | beat =>
    rw [beat_apply]
    rcases w.isOpen c.world with ⟨_ | _, s⟩
    · exact .quiet rfl rfl
    · by_cases hs : w.stalls (w.now s).2 = true
      · simp only [hs, if_true]
        exact .called rfl rfl rfl
      · simp only [hs]
        rcases w.send _ _ with ⟨_ | _, s⟩ <;> exact .called rfl rfl rfl

theorem Link.switch (s : Link w c c') : Switch c c' := by
  cases s with
  | idle s => exact s.switch
  | hold => exact .quiet rfl rfl
  | renew settings session =>
    rw [renewSession_apply]
    cases grant w settings.ttl session.kind c <;> exact .called rfl rfl rfl
  | close =>
    rw [teardown_apply]
    exact .dialled rfl rfl rfl
  | openFor session =>
    rw [openFor_apply]
    rcases w.connect (.ofSession session c.token) c.world with ⟨e | _, s⟩
    · exact .dialled rfl rfl rfl
    · exact .dialled rfl rfl rfl
  | measure => exact .quiet rfl rfl

theorem LineStep.switch (s : LineStep w c c') : Switch c c' := by
  cases s with
  | link s => exact s.switch
  | count => exact .quiet rfl rfl
  | send =>
    rw [sendReported_apply]
    exact .called rfl rfl rfl

theorem Setup.switch (s : Setup (LineStep w) c c') : Switch c c' := by
  cases s with
  | base s => exact s.switch
  | arrange => exact .quiet rfl rfl
  | add => exact .quiet rfl rfl

theorem Trim.switch (s : Trim w c c') : Switch c c' := by
  cases s with
  | line s => exact s.switch
  | strike => exact .quiet rfl rfl

theorem Plain.settled (s : Plain w c c') (h : Settled c) : Settled c' := by
  cases s with
  | setup s => exact s.switch.settled h
  | create kind =>
    rw [createSession_apply]
    cases c.sessions with
    | none => exact h
    | some settings =>
      refine Switch.settled ?_ h
      exact .called rfl rfl rfl
  | receive text =>
    refine (Switch.quiet (receive_calls text c) ?_).settled h
    unfold Client.receive
    split <;> rfl
  | configure => exact h
  | record => exact h
  | remove xs =>
    exact kept_along (fun _ _ s => s.switch.settled) (removeSymbols_walks w xs c trivial).1 h

theorem Step.settled (s : Step w c c') (h : Settled c) : Settled c' := by
  cases s with
  | plain s => exact s.settled h
  | subscribe kind xs =>
    rw [sendSubscription_apply]
    refine Switch.settled ?_ h
    rcases w.send (.subscribe kind xs) c.world with ⟨_ | _, s⟩ <;> exact .called rfl rfl rfl

end

/-! ## Runs -/

theorem Settled.shut_iff {c : Client τ} (h : Settled c) :
    c.receiving = false ↔ c.phase = .disconnected ∧ ¬ Log.Refused c.calls := by
  have hs : Log.standing c.calls = (c.phase, c.receiving) := h.symm
  constructor
  · intro hr
    obtain h | ⟨h, -⟩ | h := Log.standing_cases c.calls
    · simp [hs, hr] at h
    · simp [hs, hr] at h
    · refine ⟨congrArg Prod.fst (hs.symm.trans h), fun hf => ?_⟩
      have open' : c.receiving = true := congrArg Prod.snd (hs.symm.trans hf.standing)
      rw [hr] at open'
      cases open'
  · rintro ⟨hp, hf⟩
    obtain h | ⟨-, hr⟩ | h := Log.standing_cases c.calls
    · simp [hs, hp] at h
    · exact absurd hr hf
    · exact congrArg Prod.snd (hs.symm.trans h)

theorem Settled.receive_iff {c : Client τ} (h : Settled c) (text : String) :
    (receive text c = (false, c) ↔ c.phase = .disconnected ∧ ¬ Log.Refused c.calls) ∧
      ((receive text c).2.dispatcher.journal.statistics = c.dispatcher.journal.statistics ↔
        c.phase = .disconnected ∧ ¬ Log.Refused c.calls) := by
  rw [← h.shut_iff]
  by_cases hr : c.receiving = true
  · have counted : (receive text c).2.dispatcher.journal.statistics.received =
        c.dispatcher.journal.statistics.received + 1 := by
      unfold receive
      rw [if_pos hr]
      exact Dispatcher.dispatch_received ..
    have shut : ¬ c.receiving = false := by simp [hr]
    refine ⟨iff_of_false (fun h => ?_) shut, iff_of_false (fun h => ?_) shut⟩
    · rw [h] at counted
      exact Nat.succ_ne_self _ counted.symm
    · rw [h] at counted
      exact Nat.succ_ne_self _ counted.symm
  · have same : receive text c = (false, c) := by
      unfold receive
      rw [if_neg hr]
    have shut : c.receiving = false := by simpa using hr
    rw [same]
    exact ⟨iff_of_true rfl shut, iff_of_true rfl shut⟩

section
variable (world : τ) (settings : StreamSettings) (sessions : Option SessionSettings)
  (token : String) (runtime : Runtime)

theorem settled_after (actions : List Action) :
    Settled (after w actions (create world settings sessions token runtime)) :=
  kept_after w (fun _ _ s => s.settled) actions rfl

/-- After every run, a text that comes in is left alone, and counted nowhere, just when the client is
disconnected and its latest connect or disconnect is not a connect that failed. -/
theorem receives_nothing_iff (actions : List Action) (text : String) :
    let c := after w actions (create world settings sessions token runtime)
    (receive text c = (false, c) ↔ c.phase = .disconnected ∧ ¬ Log.Refused c.calls) ∧
      ((receive text c).2.dispatcher.journal.statistics = c.dispatcher.journal.statistics ↔
        c.phase = .disconnected ∧ ¬ Log.Refused c.calls) :=
  (settled_after w world settings sessions token runtime actions).receive_iff text

end

def refused : List Action :=
  [.registerHandler .trade Playback.handler, .setSession Playback.session, .connect]

def refusing : Client Playback :=
  .create { openings := [.fails (.network "refused")], now := .earliest } {} none "" .singleThread

def tradeText : String := "\x7b\"type\":\"trade\"\x7d"

theorem refused_connect_receives :
    (after Playback.world refused refusing).phase = .disconnected ∧
    (receive tradeText (after Playback.world refused refusing)).1 = true ∧
    (receive tradeText
      (after Playback.world refused refusing)).2.dispatcher.journal.statistics.received = 1 ∧
    (receive tradeText (after Playback.world refused refusing)).2.dispatcher.deliveries.length = 1 :=
  ⟨by cbv, by cbv, by cbv, by cbv⟩

end Client

end MarketFeed
