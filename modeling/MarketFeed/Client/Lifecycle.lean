import MarketFeed.Client
import MarketFeed.Reconnect.Schedule

/-!
# Opening and closing connections

A connection is opened for the session that the client holds, renewed first if it has expired.
Closing stops the heartbeat before the transport is closed. Reconnecting closes, waits, renews the
session, opens and restores every active subscription.
-/

namespace MarketFeed.Client

variable {τ : Type} (w : World τ)

/-! ## Sessions -/

def noSessionManager : FeedError := .validation "no session manager configured"

/-- Creates a session, which the client does not hold yet. -/
def createSession (kind : SessionKind) : Op τ (Except FeedError Session) := do
  match (← get).sessions with
  | none => return .error noSessionManager
  | some settings =>
    let now ← ask w.now
    settings.create (service w) now kind

def setSession (session : Session) : Op τ Unit :=
  modify fun c => { c with session := some session }

/-- Replaces a session by a new one of its kind and holds that; a failure is reported. -/
def renewSession (settings : SessionSettings) (session : Session) :
    Op τ (Except FeedError Session) := do
  let now ← ask w.now
  match ← settings.renew (service w) now session with
  | .ok renewed =>
    setSession renewed
    return .ok renewed
  | .error e =>
    report e
    return .error e

/-- The session that the client holds, renewed if it has expired and can be. Nothing if it is not
active. -/
def activeSession : Op τ (Except FeedError (Option Session)) := do
  match (← get).session with
  | none => return .ok none
  | some session =>
    let now ← ask w.now
    match session.isExpired now, (← get).sessions with
    | true, some settings =>
      match ← renewSession w settings session with
      | .ok renewed => return .ok (if renewed.isActive then some renewed else none)
      | .error e => return .error e
    | _, _ => return .ok (if session.isActive then some session else none)

/-! ## Connection -/

def teardown : Op τ Unit := do
  let before ← get
  modify fun c => { c with heartbeat := none, phase := .disconnected, receiving := false }
  closeTransport w
  modify fun c => { c with hasId := false }
  if before.phase ≠ .disconnected then sample (.connected false)

def opened : Op τ Unit := do
  modifyDispatcher Dispatcher.resetDuplicates
  modifyJournal (·.modifyStatistics (·.markStarted))
  modify fun c => { c with hasId := true, wasOpened := true, phase := .connected }
  sample (.connected true)
  modify fun c => { c with heartbeat := some (.start (.ofStream c.settings) c.time) }

def openFor (session : Session) : Op τ (Except FeedError Unit) := do
  modify fun c => { c with phase := .connecting, receiving := true }
  match ← openTransport w (.ofSession session (← get).token) with
  | .ok _ =>
    opened
    return .ok ()
  | .error e =>
    modify fun c => { c with phase := .disconnected }
    report e
    return .error e

/-- Opens the connection and starts its heartbeat. Nothing is done if the client is connected
already, or holds no active session. -/
def connect : Op τ (Except FeedError Unit) := do
  if (← get).phase = .connected then
    if ← isConnected w then return .ok ()
    teardown w
  match ← activeSession w with
  | .error e => return .error e
  | .ok none => return .ok ()
  | .ok (some session) => openFor w session

def disconnect : Op τ Unit := teardown w

/-! ## Reconnection -/

def sendReported (frame : Frame) : Op τ Unit := do
  match ← sendFrame w frame with
  | .ok _ => return
  | .error e => report e

/-- Sends frames in order; failures are reported and hold nothing up. -/
def sendAll : List Frame → Op τ Unit
  | [] => return
  | frame :: rest => do
    sendReported w frame
    sendAll rest

def renewHeld : Op τ (Except FeedError Unit) := do
  match (← get).sessions, (← get).session with
  | some settings, some session =>
    match ← renewSession w settings session with
    | .ok _ => return .ok ()
    | .error e => return .error e
  | _, _ => return .ok ()

def restore : Op τ Unit := do
  modifyJournal (·.modifyStatistics (·.countReconnect))
  sample .reconnect
  sendAll w (← registry).replayFrames

def reopen (delay : Duration) : Op τ (Except FeedError Unit) := do
  if !delay.isZero then sleep w delay
  match ← renewHeld w with
  | .error e => return .error e
  | .ok _ =>
    match ← connect w with
    | .error e => return .error e
    | .ok _ =>
      if (← get).phase = .connected then restore w
      return .ok ()

def reconnectAfter (delay : Duration) : Op τ (Except FeedError Unit) := do
  teardown w
  reopen w delay

def reconnect : Op τ (Except FeedError Unit) := do
  reconnectAfter w (← get).settings.reconnectDelay

inductive Cancellation where
  | never
  | already
  | at (time : Nat)
  /-- While an attempt is made, counted from one. -/
  | during (attempt : Nat)
  deriving DecidableEq, Repr

inductive LoopEnd where
  | connected (attempts : Nat)
  | failed (failure : ReconnectFailure)
  | outOfRange
  deriving DecidableEq, Repr

def noActiveSession : FeedError := .validation "no active session"

def noAttempt : FeedError := .network "no attempt made"

/-- Waits for an attempt, but no longer than until the loop is told to stop. Gives whether the
attempt is to be made. -/
def waitForAttempt (cancellation : Cancellation) (attempt : Nat) (delay : Duration) :
    Op τ Bool := do
  let wake := Timer.wake (← get).time delay
  match cancellation with
  | .already => return false
  | .never =>
    elapse w wake
    return true
  | .at time =>
    if time < wake then
      elapse w time
      return false
    else
      elapse w wake
      return true
  | .during earlier =>
    if earlier < attempt then return false
    else
      elapse w wake
      return true

def attempt : Op τ (Option FeedError) := do
  match ← reconnectAfter w .zero with
  | .error e => return some e
  | .ok _ => return if ← isConnected w then none else some noActiveSession

/-- Makes attempts until one succeeds, at most the given number. Nothing if the loop is not over by
then. -/
def attempts (cancellation : Cancellation) :
    Nat → Attempts → Option FeedError → Op τ (Option LoopEnd)
  | 0, _, _ => return none
  | rounds + 1, made, last => do
    let fraction ← ask w.fraction
    match made.next fraction with
    | (.exhausted, made) => return some (.failed (.exceeded made.made (last.getD noAttempt)))
    | (.outOfRange, _) => return some .outOfRange
    | (.after delay, made) =>
      if ← waitForAttempt w cancellation made.made delay then
        match ← attempt w with
        | none => return some (.connected made.made)
        | some e => attempts cancellation rounds made (some e)
      else return some (.failed .cancelled)

def reconnectWithBackoff (cancellation : Cancellation) (rounds : Nat) :
    Op τ (Option LoopEnd) := do
  attempts w cancellation rounds { schedule := .ofSettings (← get).settings } none

/-! ## Discarding a client -/

/-- Closes without waiting: the close itself is left to run later, if there is anything to run
it. -/
def detach (canRun : Bool) : Op τ Unit := do
  let before ← get
  modify fun c => { c with heartbeat := none, hasId := false, phase := .disconnected }
  if before.phase ≠ .disconnected then sample (.connected false)
  modify fun c => { c with closing := canRun }

/-- Ends a client. `ambient` is what runs tasks where this happens, if anything does. A thread that
tasks depend on cannot wait for them, so there the close is left to run later. -/
def discard (ambient : Option Runtime) : Op τ Unit := do
  let c ← get
  if c.heartbeat.isSome || c.phase ≠ .disconnected then
    modify fun c => { c with receiving := false }
    match ambient, c.wasOpened, c.runtime with
    | some .multiThread, _, _ => teardown w
    | some .singleThread, _, _ => detach true
    | none, true, .multiThread => teardown w
    | none, wasOpened, _ => detach wasOpened

end MarketFeed.Client
