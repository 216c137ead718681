import MarketFeed.Journal
import MarketFeed.Settings
import MarketFeed.Timer

/-!
# Heartbeats

A monitor sends a sign of life at every interval. It gives up after too many failures in a row,
after a failure that follows a long silence, and when the connection is closed. `Monitor.step`
says what one cycle leads to.
-/

namespace MarketFeed

structure HeartbeatSettings where
  interval : Duration := .ofSeconds 30
  /-- How many failures in a row end the monitor. -/
  maxFailures : Nat := 3
  /-- How long there may be no success before a failure ends the monitor. -/
  silenceLimit : Duration := .ofSeconds 300
  deriving DecidableEq, Repr

def HeartbeatSettings.ofStream (s : StreamSettings) : HeartbeatSettings :=
  { interval := s.heartbeatInterval }

inductive HeartbeatExit where
  | cancelled
  | tooManyFailures (count : Nat)
  | silence (length : Duration)
  | connectionClosed
  deriving DecidableEq, Repr

inductive Cycle where
  /-- The monitor was told to stop, before or while it sent. -/
  | cancelled
  | closed
  | sent
  | failed (error : FeedError) (silentFor : Duration)
  deriving DecidableEq, Repr

structure Monitor where
  settings : HeartbeatSettings
  failures : Nat := 0
  deriving DecidableEq, Repr

namespace Monitor

def recordSuccess (m : Monitor) : Monitor := { m with failures := 0 }

def recordFailure (m : Monitor) : Monitor := { m with failures := m.failures + 1 }

def step (m : Monitor) : Cycle → Option HeartbeatExit × Monitor
  | .cancelled => (some .cancelled, m)
  | .closed => (some .connectionClosed, m)
  | .sent => (none, m.recordSuccess)
  | .failed _ silentFor =>
    let m := m.recordFailure
    if m.settings.maxFailures ≤ m.failures then (some (.tooManyFailures m.failures), m)
    else if m.settings.silenceLimit ≤ silentFor then (some (.silence silentFor), m)
    else (none, m)

def run (m : Monitor) : List Cycle → Option HeartbeatExit × Monitor
  | [] => (none, m)
  | c :: cs =>
    match m.step c with
    | (some exit, m) => (some exit, m)
    | (none, m) => run m cs

/-- When the next cycle starts. Every wait takes a tick of the timer at least. -/
def dueAfter (m : Monitor) (t : Nat) : Nat :=
  Nat.max (Timer.wake t m.settings.interval) (t + nanosPerMilli)

end Monitor

def heartbeatFailed (e : FeedError) : FeedError := .network ("heartbeat failed: " ++ e.message)

def Journal.cycle (j : Journal) : Cycle → Journal
  | .failed e _ => (j.sample .heartbeatFailure).report (heartbeatFailed e)
  | _ => j

inductive HeartbeatState where
  | waiting (due : Nat)
  | stalled
  /-- Over; a task that was aborted has no exit. -/
  | ended (exit : Option HeartbeatExit)
  deriving DecidableEq, Repr

structure Heartbeat where
  monitor : Monitor
  state : HeartbeatState
  deriving DecidableEq, Repr

namespace Heartbeat

def start (settings : HeartbeatSettings) (now : Nat) : Heartbeat :=
  let monitor : Monitor := { settings }
  ⟨monitor, .waiting (monitor.dueAfter now)⟩

def isFinished (h : Heartbeat) : Bool :=
  match h.state with
  | .ended _ => true
  | _ => false

def advance (h : Heartbeat) (now : Nat) (c : Cycle) : Heartbeat :=
  let (exit, monitor) := h.monitor.step c
  ⟨monitor, if exit.isSome then .ended exit else .waiting (monitor.dueAfter now)⟩

def cancel (h : Heartbeat) : Heartbeat :=
  if h.isFinished then h else { h with state := .ended (some .cancelled) }

def abort (h : Heartbeat) : Heartbeat :=
  if h.isFinished then h else { h with state := .ended none }

def exit? (h : Heartbeat) : Option HeartbeatExit :=
  match h.state with
  | .ended exit => exit
  | _ => none

end Heartbeat

end MarketFeed
