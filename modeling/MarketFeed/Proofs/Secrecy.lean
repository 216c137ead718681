import Mathlib
import MarketFeed.Proofs.Framing

/-!
# The access token

A client carries its token into connect targets, and nothing else depends on it: if the transport does
not tell tokens apart, a client with another token does the same, answers the same and notes the same
calls, up to the token in the targets.
-/

namespace MarketFeed

def Target.withToken (token : String) (t : Target) : Target := { t with token }

def Call.withToken (token : String) : Call → Call
  | connect held target result => connect held (target.withToken token) result
  | call => call

/-- A transport that does not tell tokens apart. -/
def World.TokenBlind {τ : Type} (w : World τ) : Prop :=
  ∀ target token s, w.connect (target.withToken token) s = w.connect target s

namespace Client

variable {τ α β : Type}

def withToken (token : String) (c : Client τ) : Client τ :=
  { c with token, calls := c.calls.map (·.withToken token) }

def Blind (token : String) (m : Op τ α) : Prop :=
  ∀ c, m (c.withToken token) = ((m c).1, (m c).2.withToken token)

namespace Blind

variable {token : String}

theorem pure (a : α) : Blind token (pure a : Op τ α) := fun _ => rfl

theorem bind {m : Op τ α} {f : α → Op τ β} (hm : Blind token m) (hf : ∀ a, Blind token (f a)) :
    Blind token (m >>= f) := by
  intro c
  rw [bind_apply, bind_apply, hm c]
  exact hf _ _

theorem get {f : Client τ → Op τ β} (same : ∀ c, f (c.withToken token) = f c)
    (hf : ∀ c, Blind token (f c)) : Blind token (get >>= f) := by
  intro c
  rw [bind_apply, bind_apply, get_apply, get_apply, same]
  exact hf c c

theorem cond {p : Prop} [Decidable p] {m m' : Op τ α} (ht : Blind token m) (hf : Blind token m') :
    Blind token (if p then m else m') := by
  by_cases h : p
  · rw [if_pos h]
    exact ht
  · rw [if_neg h]
    exact hf

theorem modify {f : Client τ → Client τ}
    (h : ∀ c, f (c.withToken token) = (f c).withToken token) :
    Blind token (modify f : Op τ Unit) :=
  fun c => congrArg (Prod.mk _) (h c)

theorem ask (q : τ → α × τ) : Blind token (ask q : Op τ α) := fun _ => rfl

theorem note {call : Call} (h : call.withToken token = call) : Blind token (note call : Op τ Unit) := by
  apply Blind.modify
  intro c
  simp [withToken, h]

end Blind

variable (w : World τ) (token : String)

/-! ## Records and time -/

theorem sendFrame_blind (frame : Frame) : Blind token (sendFrame w frame) :=
  .bind (.ask _) fun _ => .bind (.note rfl) fun _ => .pure _

theorem modifyJournal_blind (f : Journal → Journal) : Blind token (modifyJournal f : Op τ Unit) :=
  .modify fun _ => rfl

theorem sample_blind (s : Sample) : Blind token (sample s : Op τ Unit) := modifyJournal_blind token _

theorem report_blind (e : FeedError) : Blind token (report e : Op τ Unit) := modifyJournal_blind token _

theorem withRegistry_blind (f : Registry → α × Registry) :
    Blind token (withRegistry f : Op τ α) :=
  fun _ => rfl

theorem beat_blind (heartbeat : Heartbeat) (due : Nat) : Blind token (beat w heartbeat due) := by
  have finish (cycle : Cycle) : Blind token (beat.finish heartbeat cycle : Op τ Unit) :=
    .bind (modifyJournal_blind token _) fun _ => .modify fun _ => rfl
  unfold beat
  refine .bind (.modify fun _ => rfl) fun _ => .bind (.ask _) fun isOpen => ?_
  refine .cond ?_ (finish .closed)
  refine .bind (.ask _) fun now => .get (fun _ => rfl) fun c => .cond ?_ ?_
  · exact .bind (.note rfl) fun _ => .modify fun _ => rfl
  · refine .bind (sendFrame_blind w token _) fun r => ?_
    cases r with
    | ok => exact finish .sent
    | error e => exact .bind (.ask _) fun _ => finish _

theorem beats_blind (upTo : Nat) : ∀ n, Blind token (beats w upTo n) := by
  intro n
  induction n with
  | zero => exact .pure _
  | succ n ih =>
    unfold beats
    refine .get (fun _ => rfl) fun c => ?_
    rcases c.heartbeat with _ | ⟨monitor, due | _ | _⟩
    · exact .pure _
    · exact .cond (.bind (beat_blind w token _ _) fun _ => ih) (.pure _)
    · exact .pure _
    · exact .pure _

theorem elapse_blind (upTo : Nat) : Blind token (elapse w upTo) :=
  .bind (beats_blind w token upTo _) fun _ => .modify fun _ => rfl

theorem isConnected_blind : Blind token (isConnected w) := by
  unfold isConnected
  refine .get (fun _ => rfl) fun c => .cond ?_ (.pure _)
  exact .bind (.ask _) fun _ => .get (fun _ => rfl) fun _ => .pure _

theorem receive_blind (text : String) : Blind token (receive text : Op τ Bool) := by
  intro c
  unfold receive
  cases h : c.receiving <;> simp [withToken, h]

/-! ## Sessions -/

theorem requested_withToken (kind : SessionKind) (c : Client τ) :
    requested w kind (c.withToken token) = (requested w kind c).withToken token := by
  simp [requested, withToken, Call.withToken]

theorem createSession_blind (kind : SessionKind) : Blind token (createSession w kind) := by
  intro c
  have same : (c.withToken token).sessions = c.sessions := rfl
  rw [createSession_apply, createSession_apply, same]
  cases c.sessions with
  | none => rfl
  | some settings => exact congrArg (Prod.mk _) (requested_withToken w token kind c)

theorem renewSession_blind (settings : SessionSettings) (session : Session) :
    Blind token (renewSession w settings session) := by
  intro c
  have same : grant w settings.ttl session.kind (c.withToken token) =
      grant w settings.ttl session.kind c := rfl
  rw [renewSession_apply, renewSession_apply, same, requested_withToken]
  cases grant w settings.ttl session.kind c <;> rfl

theorem activeSession_blind : Blind token (activeSession w) := by
  unfold activeSession
  refine .get (fun _ => rfl) fun c => ?_
  cases c.session with
  | none => exact .pure _
  | some session =>
    refine .bind (.ask _) fun now => .get (fun _ => rfl) fun c => ?_
    cases session.isExpired now with
    | false => exact .pure _
    | true =>
      cases c.sessions with
      | none => exact .pure _
      | some settings =>
        refine .bind (renewSession_blind w token settings session) fun r => ?_
        cases r <;> exact .pure _

/-! ## Connection -/

theorem teardown_blind : Blind token (teardown w) := by
  have close : Blind token (closeTransport w) := .bind (.ask _) fun _ => .note rfl
  unfold teardown
  refine .get (fun _ => rfl) fun c => .bind (.modify fun _ => rfl) fun _ => .bind close fun _ => ?_
  exact .bind (.modify fun _ => rfl) fun _ => .cond (sample_blind token _) (.pure _)

theorem sendReported_blind (frame : Frame) : Blind token (sendReported w frame) := by
  refine .bind (sendFrame_blind w token frame) fun r => ?_
  cases r with
  | ok => exact .pure _
  | error e => exact report_blind token e

theorem sendAll_blind (frames : List Frame) : Blind token (sendAll w frames) := by
  induction frames with
  | nil => exact .pure _
  | cons frame rest ih => exact .bind (sendReported_blind w token frame) fun _ => ih

theorem renewHeld_blind : Blind token (renewHeld w) := by
  unfold renewHeld
  refine .get (fun _ => rfl) fun c => .get (fun _ => rfl) fun c' => ?_
  cases c.sessions with
  | none => exact .pure _
  | some settings =>
    cases c'.session with
    | none => exact .pure _
    | some session =>
      refine .bind (renewSession_blind w token settings session) fun r => ?_
      cases r <;> exact .pure _

theorem restore_blind : Blind token (restore w) :=
  .bind (modifyJournal_blind token _) fun _ => .bind (sample_blind token _) fun _ =>
    .get (fun _ => rfl) fun _ => sendAll_blind w token _

theorem waitForAttempt_blind (cancellation : Cancellation) (attempt : Nat) (delay : Duration) :
    Blind token (waitForAttempt w cancellation attempt delay) := by
  have wait (upTo : Nat) (b : Bool) :
      Blind token (elapse w upTo >>= fun _ => pure b : Op τ Bool) :=
    .bind (elapse_blind w token upTo) fun _ => .pure _
  unfold waitForAttempt
  refine .get (fun _ => rfl) fun c => ?_
  cases cancellation with
  | already => exact .pure _
  | never => exact wait _ _
  | «at» time => exact .cond (wait _ _) (wait _ _)
  | during earlier => exact .cond (.pure _) (wait _ _)

theorem prepareSubscription_blind (kind : EventKind) (session : Session) (xs : List String)
    (handler : Handler) : Blind token (prepareSubscription kind session xs handler : Op τ Unit) :=
  fun _ => rfl

theorem sendSubscription_blind (kind : EventKind) (xs : List String) :
    Blind token (sendSubscription w kind xs) := by
  refine .bind (sendFrame_blind w token _) fun r => ?_
  cases r with
  | error e => exact .pure _
  | ok => exact .bind (withRegistry_blind token _) fun _ => .pure _

theorem sendForMarketKinds_blind (xs : List String) (frame : EventKind → List String → Frame) :
    Blind token (sendForMarketKinds w xs frame) := by
  refine .cond (.pure _) ?_
  refine .bind (isConnected_blind w token) fun b => .cond ?_ (.pure _)
  exact .get (fun _ => rfl) fun _ => sendAll_blind w token _

theorem announce_blind (xs : List String) (frame : EventKind → List String → Frame) :
    Blind token (do sampleSymbols; sendForMarketKinds w xs frame; return xs) := by
  refine .bind (fun _ => rfl) fun _ => ?_
  exact .bind (sendForMarketKinds_blind w token xs frame) fun _ => .pure _

theorem addSymbols_blind (xs : List String) : Blind token (addSymbols w xs) :=
  .bind (withRegistry_blind token _) fun _ => announce_blind w token _ _

theorem removeSymbols_blind (xs : List String) : Blind token (removeSymbols w xs) :=
  .bind (withRegistry_blind token _) fun _ => announce_blind w token _ _

section
variable {w} (hw : w.TokenBlind)
include hw

/-- The one place where the token is read. -/
theorem openFor_blind (session : Session) : Blind token (openFor w session) := by
  intro c
  have same : w.connect (.ofSession session (c.withToken token).token) (c.withToken token).world =
      w.connect (.ofSession session c.token) c.world :=
    hw (.ofSession session c.token) token c.world
  rw [openFor_apply, openFor_apply, same]
  rcases w.connect (.ofSession session c.token) c.world with ⟨e | _, s⟩ <;>
    simp [withToken, Call.withToken, Target.withToken, Target.ofSession]

theorem connect_blind : Blind token (connect w) := by
  unfold connect
  refine .get (fun _ => rfl) fun c => .cond (.bind (isConnected_blind w token) fun b =>
    .cond (.pure _) (.bind (teardown_blind w token) fun _ => ?_)) ?_
  -- A lost connection is closed first; from there on it is as if there had been none.
  all_goals
    refine .bind (activeSession_blind w token) fun r => ?_
    rcases r with e | _ | session
    · exact .pure _
    · exact .pure _
    · exact openFor_blind token hw session

theorem reopen_blind (delay : Duration) : Blind token (reopen w delay) := by
  have slept : Blind token (sleep w delay) := .get (fun _ => rfl) fun _ => elapse_blind w token _
  refine .cond (.bind slept fun _ => ?_) ?_
  -- Whether or not there was a delay, the same is done after it.
  all_goals
    refine .bind (renewHeld_blind w token) fun r => ?_
    cases r with
    | error e => exact .pure _
    | ok =>
      refine .bind (connect_blind token hw) fun r => ?_
      cases r with
      | error e => exact .pure _
      | ok =>
        refine .get (fun _ => rfl) fun c => .cond ?_ (.pure _)
        exact .bind (restore_blind w token) fun _ => .pure _

theorem reconnectAfter_blind (delay : Duration) : Blind token (reconnectAfter w delay) :=
  .bind (teardown_blind w token) fun _ => reopen_blind token hw delay

theorem attempt_blind : Blind token (attempt w) := by
  refine .bind (reconnectAfter_blind token hw .zero) fun r => ?_
  cases r with
  | error e => exact .pure _
  | ok => exact .bind (isConnected_blind w token) fun _ => .pure _

theorem attempts_blind (cancellation : Cancellation) : ∀ rounds made last,
    Blind token (attempts w cancellation rounds made last) := by
  intro rounds
  induction rounds with
  | zero => exact fun _ _ => .pure _
  | succ rounds ih =>
    intro made last
    unfold attempts
    refine .bind (.ask _) fun fraction => ?_
    rcases made.next fraction with ⟨_ | delay | _, made'⟩
    · exact .pure _
    · refine .bind (waitForAttempt_blind w token cancellation _ _) fun go => .cond ?_ (.pure _)
      refine .bind (attempt_blind token hw) fun r => ?_
      cases r with
      | none => exact .pure _
      | some e => exact ih _ _
    · exact .pure _

/-! ## Subscriptions -/

theorem ensureConnected_blind : Blind token (ensureConnected w) := by
  refine .bind (isConnected_blind w token) fun b => .cond (.pure _) ?_
  refine .bind (connect_blind token hw) fun r => ?_
  cases r with
  | error e => exact .pure _
  | ok => exact .bind (isConnected_blind w token) fun _ => .pure _

theorem subscribe_blind (kind : EventKind) (session : Session) (symbols : List String)
    (handler : Handler) : Blind token (subscribe w kind session symbols handler) := by
  unfold subscribe
  refine .cond (.pure _) ?_
  cases subscriptionSymbols kind symbols with
  | error e => exact .pure _
  | ok xs =>
    refine .bind (prepareSubscription_blind token kind session xs handler) fun _ => ?_
    refine .bind (ensureConnected_blind token hw) fun r => ?_
    cases r with
    | error e => exact .pure _
    | ok => exact sendSubscription_blind w token kind xs

/-! ## Runs -/

theorem act_blind (action : Action) : Blind token (act w action) := by
  cases action with
  | receive text => exact .bind (receive_blind token text) fun _ => .pure _
  | elapse d =>
    exact .bind (.get (fun _ => rfl) fun _ => elapse_blind w token _) fun _ => .pure _
  | createSession kind => exact .bind (createSession_blind w token kind) fun _ => .pure _
  | connect => exact .bind (connect_blind token hw) fun _ => .pure _
  | disconnect => exact .bind (teardown_blind w token) fun _ => .pure _
  | reconnect =>
    exact .bind (.get (fun _ => rfl) fun _ => reconnectAfter_blind token hw _) fun _ => .pure _
  | reconnectWithBackoff cancellation rounds =>
    exact .bind (.get (fun _ => rfl) fun _ => attempts_blind token hw _ _ _ _) fun _ => .pure _
  | subscribe kind session symbols handler =>
    exact .bind (subscribe_blind token hw kind session symbols handler) fun _ => .pure _
  | addSymbols xs => exact .bind (addSymbols_blind w token xs) fun _ => .pure _
  | removeSymbols xs => exact .bind (removeSymbols_blind w token xs) fun _ => .pure _
  | _ => exact fun _ => rfl

theorem actAll_blind (actions : List Action) : Blind token (actAll w actions) := by
  induction actions with
  | nil => exact .pure _
  | cons action rest ih => exact .bind (act_blind token hw action) fun _ => .bind ih fun _ => .pure _

/-- Two runs that differ in the token give the same answers, deliveries, errors, statistics, metrics and
sessions, and hand out the same frames. All calls are the same up to the token in their targets, which
is that of the run. -/
theorem token_confined (world : τ) (settings : StreamSettings) (sessions : Option SessionSettings)
    (runtime : Runtime) (actions : List Action) (token token' : String) :
    let run (t : String) := actAll w actions (create world settings sessions t runtime)
    (run token').1 = (run token).1 ∧
    (run token').2 = (run token).2.withToken token' ∧
    (run token').2.dispatcher = (run token).2.dispatcher ∧
    (run token').2.session = (run token).2.session ∧
    (run token').2.calls.filterMap Call.frame? = (run token).2.calls.filterMap Call.frame? ∧
    ((run token').2.calls.filterMap Call.target?).map (fun t => (t.url, t.sessionId)) =
      ((run token).2.calls.filterMap Call.target?).map (fun t => (t.url, t.sessionId)) ∧
    ∀ target ∈ (run token).2.calls.filterMap Call.target?, target.token = token := by
  intro run
  have twin : run token' = ((run token).1, (run token).2.withToken token') :=
    actAll_blind token' hw actions (create world settings sessions token runtime)
  have own : run token = ((run token).1, (run token).2.withToken token) :=
    actAll_blind token hw actions (create world settings sessions token runtime)
  have frames : (run token').2.calls.filterMap Call.frame? = (run token).2.calls.filterMap Call.frame? := by
    rw [twin, withToken, List.filterMap_map]
    congr 1
    funext call
    cases call <;> rfl
  have targets : ((run token').2.calls.filterMap Call.target?).map (fun t => (t.url, t.sessionId)) =
      ((run token).2.calls.filterMap Call.target?).map (fun t => (t.url, t.sessionId)) := by
    rw [twin, withToken, List.filterMap_map, List.map_filterMap, List.map_filterMap]
    congr 1
    funext call
    cases call <;> rfl
  refine ⟨by rw [twin], by rw [twin], by rw [twin]; rfl, by rw [twin]; rfl, frames, targets, ?_⟩
  intro target hm
  rw [own, withToken, List.filterMap_map] at hm
  obtain ⟨call, -, ht⟩ := List.mem_filterMap.1 hm
  cases call <;> cases ht
  rfl

end

def reopening : List Action := [Playback.subscribe .trade ["SPY"], .disconnect, .connect]

theorem playback_tokenBlind : Playback.world.TokenBlind := fun _ _ _ => rfl

theorem token_confined_reopening :
    Playback.world.TokenBlind ∧
    let run (t : String) :=
      actAll Playback.world reopening (create { now := .earliest } {} none t .singleThread)
    (run "other").2.dispatcher = (run "token").2.dispatcher ∧
    (run "token").2.calls.filterMap Call.target? =
      [.ofSession Playback.session "token", .ofSession Playback.session "token"] ∧
    (run "other").2.calls.filterMap Call.target? =
      [.ofSession Playback.session "other", .ofSession Playback.session "other"] := by
  obtain ⟨-, -, dispatcher, -⟩ := token_confined playback_tokenBlind { now := .earliest } {} none
    .singleThread reopening "token" "other"
  exact ⟨playback_tokenBlind, dispatcher, by cbv, by cbv⟩

end Client

end MarketFeed
