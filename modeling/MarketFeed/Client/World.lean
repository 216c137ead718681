import MarketFeed.Frame
import MarketFeed.Http
import MarketFeed.Target

/-!
# The world of a client

A client meets a transport, a service for requests and some clocks. `World` says how they answer;
each answer may depend on a state that the answer changes in any way, so a theorem about every
world is one about every behaviour of them.
-/

namespace MarketFeed

structure World (τ : Type) where
  connect : Target → τ → Except FeedError Unit × τ
  send : Frame → τ → Except FeedError Unit × τ
  /-- Whether a send that begins now never ends. Only heartbeats do not wait for theirs. -/
  stalls : τ → Bool
  disconnect : τ → τ
  isOpen : τ → Bool × τ
  perform : Request → τ → Outcome × τ
  now : τ → Instant × τ
  silentFor : τ → Duration × τ
  fraction : τ → Binary64 × τ

/-- What a client asked of the transport and the service, and what came of it. -/
inductive Call where
  /-- A connect, with the session that the client held at the time. -/
  | connect (held : Option Session) (target : Target) (result : Except FeedError Unit)
  | send (frame : Frame) (result : Except FeedError Unit)
  | stall (frame : Frame)
  | disconnect
  | request (request : Request) (outcome : Outcome)

namespace Call

def accepted? : Call → Option Frame
  | send frame (.ok _) => some frame
  | _ => none

def target? : Call → Option Target
  | connect _ target _ => some target
  | _ => none

def request? : Call → Option Request
  | request r _ => some r
  | _ => none

def isDisconnect : Call → Bool
  | disconnect => true
  | _ => false

end Call

end MarketFeed
