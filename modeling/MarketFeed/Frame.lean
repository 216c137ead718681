import MarketFeed.Event.Kind
import MarketFeed.Json.Printer

/-!
# Control frames

What a client writes to the feed: requests to start or stop a kind of events, and heartbeats.
-/

namespace MarketFeed

inductive Frame.Action where
  | subscribe
  | unsubscribe
  deriving DecidableEq, Repr

inductive Frame where
  | subscription (action : Frame.Action) (kind : EventKind) (symbols : Option (List String))
  | heartbeat (timestamp : Int)
  deriving DecidableEq, Repr

namespace Frame

def Action.name : Action → String
  | subscribe => "subscribe"
  | unsubscribe => "unsubscribe"

/-- Account kinds are subscribed as a whole, without symbols. -/
def request (action : Action) (kind : EventKind) (symbols : List String) : Frame :=
  subscription action kind (if kind.isAccount then none else some symbols)

def subscribe (kind : EventKind) (symbols : List String) : Frame :=
  request .subscribe kind symbols

def unsubscribe (kind : EventKind) (symbols : List String) : Frame :=
  request .unsubscribe kind symbols

/-- The members of a frame with their texts, in the order in which they are written. -/
def members : Frame → List (String × String)
  | subscription action kind symbols =>
    [("type", Json.quote action.name), ("to", Json.quote kind.name)] ++
      (symbols.map fun s => ("symbols", Json.renderItems (s.map Json.quote))).toList
  | heartbeat timestamp =>
    [("type", Json.quote "heartbeat"), ("timestamp", Json.integerText timestamp)]

def render (f : Frame) : String := Json.renderMembers f.members

end Frame

end MarketFeed
