import Mathlib
import MarketFeed.Proofs.Discipline
import MarketFeed.Proofs.Reconnection

/-!
# The connection that a subscription travels on

A subscription is made for a session, but its frame goes out on the connection that is open. Only a
subscription that has to open one first opens it for its own session; the session of any other frame
is the one for which the open connection was opened.
-/

namespace MarketFeed

namespace Log

def line? (log : List Call) : Option Target :=
  log.foldl (fun line call => match call with
    | .connect _ target (.ok _) => some target
    | .disconnect => none
    | _ => line) none

theorem line?_snoc (log : List Call) (call : Call) :
    line? (log ++ [call]) = match call with
      | .connect _ target (.ok _) => some target
      | .disconnect => none
      | _ => line? log := by
  unfold line?
  rw [List.foldl_append]
  rfl

theorem isSome_line? (log : List Call) : (line? log).isSome = isUp log := by
  induction log using List.reverseRecOn with
  | nil => rfl
  | append_singleton log call ih =>
    rw [line?_snoc, isUp_snoc, ← ih]
    rcases call with ⟨_, _, _ | _⟩ | _ | _ | _ | _ <;>
      simp [Call.isOpening, Call.isDisconnect]

end Log

namespace Client

open Log

variable {τ : Type} (w : World τ)

/-! ## What is never written -/

def Lasting (c c' : Client τ) : Prop := c'.sessions = c.sessions ∧ c'.token = c.token

section
variable {w} {c c' : Client τ}

theorem Idle.lasting (s : Idle w c c') : Lasting c c' := by
  cases s with
  | ask => exact ⟨rfl, rfl⟩
  | pass => exact ⟨rfl, rfl⟩
  | beat =>
    rw [beat_apply]
    rcases w.isOpen c.world with ⟨_ | _, s⟩
    · exact ⟨rfl, rfl⟩
    · by_cases hs : w.stalls (w.now s).2 = true
      · simp only [hs, if_true]
        exact ⟨rfl, rfl⟩
      · simp only [hs]
        rcases w.send _ _ with ⟨_ | _, s⟩ <;> exact ⟨rfl, rfl⟩

theorem Link.lasting (s : Link w c c') : Lasting c c' := by
  cases s with
  | idle s => exact s.lasting
  | hold => exact ⟨rfl, rfl⟩
  | renew settings session =>
    rw [renewSession_apply]
    cases grant w settings.ttl session.kind c <;> exact ⟨rfl, rfl⟩
  | close =>
    rw [teardown_apply]
    exact ⟨rfl, rfl⟩
  | openFor session =>
    rw [openFor_apply]
    rcases w.connect (.ofSession session c.token) c.world with ⟨_ | _, s⟩ <;> exact ⟨rfl, rfl⟩
  | measure => exact ⟨rfl, rfl⟩

theorem LineStep.lasting (s : LineStep w c c') : Lasting c c' := by
  cases s with
  | link s => exact s.lasting
  | count => exact ⟨rfl, rfl⟩
  | send =>
    rw [sendReported_apply]
    exact ⟨rfl, rfl⟩

theorem Trim.lasting (s : Trim w c c') : Lasting c c' := by
  cases s with
  | line s => exact s.lasting
  | strike => exact ⟨rfl, rfl⟩

theorem Lasting.along {S : Client τ → Client τ → Prop} (hS : ∀ c c', S c c' → Lasting c c')
    (path : Relation.ReflTransGen S c c') : Lasting c c' :=
  kept_along (I := Lasting c)
    (fun _ _ s h => ⟨(hS _ _ s).1.trans h.1, (hS _ _ s).2.trans h.2⟩) path ⟨rfl, rfl⟩

theorem Step.lasting (s : Step w c c') : Lasting c c' := by
  cases s with
  | subscribe kind xs =>
    rw [sendSubscription_apply]
    rcases w.send (.subscribe kind xs) c.world with ⟨_ | _, s⟩ <;> exact ⟨rfl, rfl⟩
  | plain s =>
    cases s with
    | setup s =>
      cases s with
      | base s => exact s.lasting
      | arrange => exact ⟨rfl, rfl⟩
      | add => exact ⟨rfl, rfl⟩
    | create kind =>
      rw [createSession_apply]
      cases c.sessions <;> exact ⟨rfl, rfl⟩
    | receive =>
      unfold Client.receive
      split <;> exact ⟨rfl, rfl⟩
    | configure => exact ⟨rfl, rfl⟩
    | record => exact ⟨rfl, rfl⟩
    | remove xs => exact .along (fun _ _ s => s.lasting) (removeSymbols_walks w xs c trivial).1

end

theorem after_lasting (actions : List Action) (c : Client τ) : Lasting c (after w actions c) :=
  kept_after w (I := Lasting c)
    (fun _ _ s h => ⟨s.lasting.1.trans h.1, s.lasting.2.trans h.2⟩) actions ⟨rfl, rfl⟩

/-! ## Getting connected -/

/-- How a client that cannot renew its session gets connected for it: by the calls that are made,
from a log to the target of the connection that is then open. -/
inductive Joins (session : Session) (token : String) (log : List Call) : List Call → Target → Prop
  | stays {target} (h : line? log = some target) : Joins session token log [] target
  | opens {closing} (h : closing = [] ∨ closing = [.disconnect]) :
      Joins session token log
        (closing ++ [.connect (some session) (.ofSession session token) (.ok ())])
        (.ofSession session token)

section
variable {session : Session} {token : String} {log made : List Call} {target : Target}

theorem Joins.line? (h : Joins session token log made target) :
    Log.line? (log ++ made) = some target := by
  cases h with
  | stays h => rwa [List.append_nil]
  | opens => rw [← List.append_assoc, line?_snoc]

theorem Joins.own_iff (h : Joins session token log made target) :
    target.url = session.url ∧ target.sessionId = session.id ↔
      made ≠ [] ∨ ∃ earlier, Log.line? log = some earlier ∧
        earlier.url = session.url ∧ earlier.sessionId = session.id := by
  cases h with
  | stays h => simp [h]
  | opens => simp [Target.ofSession]

end

theorem Joins.of_connected {c : Client τ} {session : Session} (h : Tidy c) (hp : c.phase = .connected) :
    ∃ target, Joins session c.token c.calls [] target := by
  obtain ⟨target, hl⟩ : ∃ target, Log.line? c.calls = some target := by
    apply Option.isSome_iff_exists.1
    rw [isSome_line?]
    exact h.isUp_iff.2 hp
  exact ⟨target, .stays hl⟩

theorem connect_opens {c : Client τ} {session : Session} (hp : c.phase ≠ .connected)
    (hm : c.sessions = none) (hs : c.session = some session) (ha : session.isActive = true)
    (h : (connect w c).1 = .ok ()) :
    (connect w c).2.calls =
      c.calls ++ [.connect (some session) (.ofSession session c.token) (.ok ())] := by
  obtain ⟨requests, held, calls, up, checks, opens, -, track⟩ := connect_course w hp
  cases checks with
  | renews hm' =>
    rw [hm] at hm'
    cases hm'
  | keeps =>
    rw [hs, h] at opens
    rw [track.calls]
    cases opens with
    | idle hi => simp [hi session rfl] at ha
    | opened => rfl

theorem connect_connected {c : Client τ} (hp : c.phase = .connected) :
    connect w c = if (isConnected w c).1 = true then (.ok (), (isConnected w c).2)
      else connect w (teardown w (isConnected w c).2).2 := by
  have closed := teardown_phase w (isConnected w c).2
  rw [connect_apply w closed]
  unfold connect
  rw [bind_apply, get_apply, if_pos hp]
  show (isConnected w >>= _) c = _
  rw [bind_apply]
  cases (isConnected w c).1 with
  | true => rfl
  | false =>
    rw [if_neg nofun, if_neg nofun, bind_apply]
    dsimp only
    rw [bind_apply]
    rcases (activeSession w _).1 with _ | _ | session <;> rfl

section
variable {w} {c : Client τ} {session : Session} (h : Tidy c) (hm : c.sessions = none)
  (hs : c.session = some session) (ha : session.isActive = true)
include h hm hs ha

theorem connect_joins (hr : (connect w c).1 = .ok ()) : ∃ made target,
    (connect w c).2.calls = c.calls ++ made ∧ Joins session c.token c.calls made target := by
  by_cases hp : c.phase = .connected
  · obtain ⟨s, hl⟩ := isConnected_world w c
    rw [connect_connected w hp] at hr ⊢
    by_cases hb : (isConnected w c).1 = true
    · rw [if_pos hb, hl]
      obtain ⟨target, joins⟩ := Joins.of_connected h hp
      exact ⟨[], target, by simp, joins⟩
    · rw [if_neg hb, hl] at hr ⊢
      have closed := teardown_phase w { c with world := s }
      have same := teardown_apply w { c with world := s }
      have opens := connect_opens w closed (by rw [same]; exact hm) (by rw [same]; exact hs) ha hr
      refine ⟨_, _, ?_, .opens (.inr rfl)⟩
      rw [opens, same]
      simp
  · exact ⟨_, _, connect_opens w hp hm hs ha hr, .opens (.inl rfl)⟩

theorem ensureConnected_joins (hr : (ensureConnected w c).1 = .ok ()) : ∃ made target,
    (ensureConnected w c).2.calls = c.calls ++ made ∧ Joins session c.token c.calls made target ∧
      ((isConnected w c).1 = true → made = []) := by
  obtain ⟨s, hl⟩ := isConnected_world w c
  rw [ensureConnected_apply] at hr ⊢
  by_cases hb : (isConnected w c).1 = true
  · obtain ⟨target, joins⟩ := Joins.of_connected h ((isConnected_iff w c).1 hb).1
    rw [if_pos hb, hl]
    exact ⟨[], target, (List.append_nil _).symm, joins, fun _ => rfl⟩
  · rw [if_neg hb, hl] at hr ⊢
    have connects := connect_joins (w := w) (c := { c with world := s }) (h.of_eq rfl rfl rfl) hm hs ha
    generalize connect w { c with world := s } = result at hr connects
    rcases result with ⟨e | _, c'⟩
    · cases hr
    · obtain ⟨made, target, hc, joins⟩ := connects rfl
      obtain ⟨s', hl'⟩ := isConnected_world w c'
      refine ⟨made, target, ?_, joins, fun hb' => absurd hb' hb⟩
      rw [hl']
      exact hc

end

/-! ## Subscribing -/

theorem subscribe_course {kind : EventKind} {session : Session} {symbols : List String}
    {handler : Handler} {c : Client τ}
    (h : (subscribe w kind session symbols handler c).1 = .ok ()) :
    session.isActive = true ∧ ∃ xs ready, subscriptionSymbols kind symbols = .ok xs ∧
      ensureConnected w (prepareSubscription kind session xs handler c).2 = (.ok (), ready) ∧
      (subscribe w kind session symbols handler c).2.calls =
        ready.calls ++ [.send (.subscribe kind xs) (.ok ())] ∧
      (subscribe w kind session symbols handler c).2.dispatcher.registry =
        ready.dispatcher.registry.activate kind := by
  rw [subscribe_apply] at h ⊢
  by_cases ha : session.isActive = true
  · rw [if_pos ha] at h ⊢
    refine ⟨ha, ?_⟩
    cases hx : subscriptionSymbols kind symbols with
    | error e =>
      rw [hx] at h
      cases h
    | ok xs =>
      rw [hx] at h
      dsimp only at h ⊢
      generalize hr : ensureConnected w (prepareSubscription kind session xs handler c).2 = result at h
      rcases result with ⟨_ | _, ready⟩
      · cases h
      · refine ⟨xs, ready, rfl, hr, ?_⟩
        dsimp only at h ⊢
        rw [sendSubscription_apply] at h ⊢
        generalize w.send (.subscribe kind xs) ready.world = result at h
        rcases result with ⟨_ | _, s⟩
        · cases h
        · exact ⟨rfl, rfl⟩
  · rw [if_neg ha] at h
    cases h

/-- A subscription sends its frame on the line of its own session if it has to open one, which it
does not while the client is connected. Otherwise the frame goes out on the line that is open, and that
is one of its session just if it was opened for that session's address and id. -/
theorem subscription_carried (world : τ) (settings : StreamSettings) (token : String)
    (runtime : Runtime) (before : List Action) (kind : EventKind) (session : Session)
    (symbols : List String) (handler : Handler)
    (h : (subscribe w kind session symbols handler
      (after w before (create world settings none token runtime))).1 = .ok ()) :
    let c := after w before (create world settings none token runtime)
    ∃ xs made target, subscriptionSymbols kind symbols = .ok xs ∧
      (subscribe w kind session symbols handler c).2.calls =
        c.calls ++ made ++ [.send (.subscribe kind xs) (.ok ())] ∧
      Log.line? (c.calls ++ made) = some target ∧
      Joins session token c.calls made target ∧
      ((isConnected w c).1 = true → made = []) ∧
      (target.url = session.url ∧ target.sessionId = session.id ↔
        made ≠ [] ∨ ∃ earlier, Log.line? c.calls = some earlier ∧
          earlier.url = session.url ∧ earlier.sessionId = session.id) := by
  intro c
  have tidy : Tidy c :=
    kept_after w (fun _ _ s => s.tidy w) before (tidy_create world settings none token runtime)
  obtain ⟨managed, kept⟩ := after_lasting w before (create world settings none token runtime)
  obtain ⟨ha, xs, ready, hx, hr, hc, -⟩ := subscribe_course w h
  have prepared : Tidy (prepareSubscription kind session xs handler c).2 := tidy.of_eq rfl rfl rfl
  obtain ⟨made, target, hm, joins, stays⟩ :=
    ensureConnected_joins prepared managed rfl ha (congrArg Prod.fst hr)
  have token : (prepareSubscription kind session xs handler c).2.token = token := kept
  have calls : (prepareSubscription kind session xs handler c).2.calls = c.calls := rfl
  rw [token, calls] at joins
  rw [hr, calls] at hm
  refine ⟨xs, made, target, hx, by rw [hc, hm], joins.line?, joins, ?_, joins.own_iff⟩
  intro hb
  apply stays
  rw [isConnected_iff] at hb ⊢
  exact hb

def accountSession : Session := ⟨"wss://accounts", "account", .latest⟩

def closedAgain : List Action := [Playback.subscribe .trade ["SPY"], .disconnect]

theorem subscription_carried_reopened :
    (subscribe Playback.world .order accountSession [] Playback.handler
      (after Playback.world closedAgain (create { now := .earliest } {} none "" .singleThread))).1 =
        .ok () ∧
    ∃ made target,
      Log.line? ((after Playback.world closedAgain
        (create { now := .earliest } {} none "" .singleThread)).calls ++ made) = some target ∧
      made ≠ [] ∧ target.url = accountSession.url ∧ target.sessionId = accountSession.id := by
  have result : (subscribe Playback.world .order accountSession [] Playback.handler
      (after Playback.world closedAgain (create { now := .earliest } {} none "" .singleThread))).1 =
        .ok () := by cbv
  have closed : Log.line? (after Playback.world closedAgain
      (create { now := .earliest } {} none "" .singleThread)).calls = none := by cbv
  obtain ⟨-, made, target, -, -, line, -, -, own⟩ := subscription_carried Playback.world
    { now := .earliest } {} "" .singleThread closedAgain .order accountSession [] Playback.handler result
  have opened : made ≠ [] := by
    rintro rfl
    rw [List.append_nil, closed] at line
    cases line
  exact ⟨result, made, target, line, opened, own.2 (.inl opened)⟩

/-- While the market's line is open, a subscription for an account session succeeds and goes out on
that line. -/
theorem account_subscription_on_market_line :
    let c := after Playback.world [Playback.subscribe .trade ["SPY"]] (Playback.client .succeeds)
    let result := subscribe Playback.world .order accountSession [] Playback.handler c
    Playback.session.kind = .market ∧ accountSession.kind = .account ∧
    result.1 = .ok () ∧
    result.2.calls.filterMap Call.accepted? = [.subscribe .trade ["SPY"], .subscribe .order []] ∧
    result.2.calls.filterMap Call.target? = [.ofSession Playback.session ""] ∧
    Log.line? result.2.calls = some (.ofSession Playback.session "") ∧
    Playback.session.url ≠ accountSession.url :=
  ⟨by decide +kernel, by decide +kernel, by cbv, by cbv, by cbv, by cbv, by decide⟩

end Client

end MarketFeed
