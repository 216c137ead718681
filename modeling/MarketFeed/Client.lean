import MarketFeed.Client.World
import MarketFeed.Dispatcher
import MarketFeed.Heartbeat

/-!
# Clients

A client holds one session, one connection with its heartbeat, and the subscriptions that belong on
it. Operations act on `Client`; those below are the smallest, and all others are made of them.
-/

namespace MarketFeed

inductive Phase where
  | disconnected
  | connecting
  | connected
  deriving DecidableEq, Repr

def Phase.name : Phase → String
  | disconnected => "Disconnected"
  | connecting => "Connecting"
  | connected => "Connected"

/-- How tasks are run: on the caller's thread alone, or on threads of their own. -/
inductive Runtime where
  | singleThread
  | multiThread
  deriving DecidableEq, Repr

structure Client (τ : Type) where
  world : τ
  settings : StreamSettings
  /-- How sessions are created and renewed, if that is possible at all. -/
  sessions : Option SessionSettings := none
  /-- The access token; it goes into connect targets and nowhere else. -/
  token : String := ""
  dispatcher : Dispatcher := {}
  session : Option Session := none
  phase : Phase := .disconnected
  heartbeat : Option Heartbeat := none
  hasId : Bool := false
  receiving : Bool := false
  runtime : Runtime := .singleThread
  wasOpened : Bool := false
  /-- A close that is left to run by itself. -/
  closing : Bool := false
  /-- Nanoseconds since the client was made. -/
  time : Nat := 0
  /-- All calls, oldest first. -/
  calls : List Call := []

def Client.create {τ : Type} (world : τ) (settings : StreamSettings)
    (sessions : Option SessionSettings) (token : String) (runtime : Runtime) : Client τ :=
  { world, settings, sessions, token, runtime }

abbrev Op (τ α : Type) := StateM (Client τ) α

namespace Client

variable {τ : Type}

/-! ## The world -/

def ask {α : Type} (question : τ → α × τ) : Op τ α := fun c =>
  let (a, world) := question c.world
  (a, { c with world })

def note (call : Call) : Op τ Unit := modify fun c => { c with calls := c.calls ++ [call] }

def openTransport (w : World τ) (target : Target) : Op τ (Except FeedError Unit) := do
  let held := (← get).session
  let result ← ask (w.connect target)
  note (.connect held target result)
  return result

def closeTransport (w : World τ) : Op τ Unit := do
  ask fun s => ((), w.disconnect s)
  note .disconnect

def sendFrame (w : World τ) (frame : Frame) : Op τ (Except FeedError Unit) := do
  let result ← ask (w.send frame)
  note (.send frame result)
  return result

def service (w : World τ) : Service (Client τ) where
  perform request c := (do
    let outcome ← ask (w.perform request)
    note (.request request outcome)
    return outcome : Op τ Outcome) c

/-! ## Records -/

def modifyDispatcher (f : Dispatcher → Dispatcher) : Op τ Unit :=
  modify fun c => { c with dispatcher := f c.dispatcher }

def modifyJournal (f : Journal → Journal) : Op τ Unit :=
  modifyDispatcher (·.modifyJournal f)

def report (e : FeedError) : Op τ Unit := modifyJournal (·.report e)

def sample (s : Sample) : Op τ Unit := modifyJournal (·.sample s)

def withRegistry {α : Type} (f : Registry → α × Registry) : Op τ α := fun c =>
  let (a, registry) := f c.dispatcher.registry
  (a, { c with dispatcher := { c.dispatcher with registry } })

def modifyRegistry (f : Registry → Registry) : Op τ Unit :=
  withRegistry fun r => ((), f r)

def registry : Op τ Registry := return (← get).dispatcher.registry

/-! ## Time -/

def beat (w : World τ) (heartbeat : Heartbeat) (due : Nat) : Op τ Unit := do
  modify fun c => { c with time := Nat.max c.time due }
  if ← ask w.isOpen then
    let now ← ask w.now
    if w.stalls (← get).world then
      note (.stall (.heartbeat now.millis))
      modify fun c => { c with heartbeat := some { heartbeat with state := .stalled } }
    else
      match ← sendFrame w (.heartbeat now.millis) with
      | .ok _ => finish .sent
      | .error e => finish (.failed e (← ask w.silentFor))
  else finish .closed
where
  finish (cycle : Cycle) : Op τ Unit := do
    modifyJournal (·.cycle cycle)
    modify fun c => { c with heartbeat := some (heartbeat.advance c.time cycle) }

/-- Runs the cycles of the heartbeat that are due up to a time, at most the given number. -/
def beats (w : World τ) (upTo : Nat) : Nat → Op τ Unit
  | 0 => return
  | n + 1 => do
    match (← get).heartbeat with
    | some ⟨monitor, .waiting due⟩ =>
      if due ≤ upTo then
        beat w ⟨monitor, .waiting due⟩ due
        beats w upTo n
    | _ => return

def elapse (w : World τ) (upTo : Nat) : Op τ Unit := do
  beats w upTo (Timer.tickBefore upTo + 1)
  modify fun c => { c with time := Nat.max c.time upTo }

def sleep (w : World τ) (d : Duration) : Op τ Unit := do
  elapse w (Timer.wake (← get).time d)

def settle (w : World τ) : Op τ Unit := do
  if (← get).closing then
    closeTransport w
    modify fun c => { c with closing := false }

/-! ## Connection state -/

def isBeating (c : Client τ) : Bool := (c.heartbeat.map fun h => !h.isFinished).getD false

def isConnected (w : World τ) : Op τ Bool := do
  if (← get).phase = .connected then
    let isOpen ← ask w.isOpen
    return isOpen && (← get).isBeating
  else return false

/-- A text that comes in. Gives whether it was received. -/
def receive (text : String) : Op τ Bool := fun c =>
  if c.receiving then
    let (_, dispatcher) := c.dispatcher.dispatch c.settings.dispatchRules text
    (true, { c with dispatcher })
  else (false, c)

def describe (c : Client τ) : String :=
  "StreamingClient \x7b state: " ++ c.phase.name ++ ", registry: " ++
    c.dispatcher.registry.describe ++ ", .. \x7d"

end Client

end MarketFeed
