import MarketFeed.Http
import MarketFeed.Target
import MarketFeed.Url

/-!
# Sockets

The connection on which a feed comes in. A reader hands every text that arrives to the handler that
is installed at that time, and stops at the first sign that nothing more will arrive.
-/

namespace MarketFeed

inductive Incoming where
  | text (content : String)
  | binary (content : List UInt8)
  | ping
  | pong
  | close
  | failure
  deriving DecidableEq, Repr

namespace Incoming

/-- The text that is handed over: bytes count if they are the UTF-8 of one. -/
def text? : Incoming → Option String
  | text s => some s
  | binary bs => Utf8.decode? bs
  | _ => none

def isLast : Incoming → Bool
  | close | failure => true
  | _ => false

end Incoming

/-- What a reader meets next; at the end of its input it meets nothing more. -/
inductive Turn where
  | incoming (i : Incoming)
  | cancelled
  deriving DecidableEq, Repr

structure Handshake where
  url : Url
  authorization : Option String
  deriving DecidableEq, Repr

namespace Target

/-- The address of a target: the session's identifier is a parameter, unless one is there. -/
def url? (t : Target) : Option Url :=
  (Url.parse? t.url).map (·.ensurePair ("sessionid", t.sessionId))

def handshake (t : Target) : Except FeedError Handshake :=
  match t.url? with
  | none => .error (.network "invalid stream url: no absolute address")
  | some url =>
    let authorization := "Bearer " ++ t.token
    if t.token = "" then .ok { url, authorization := none }
    else if isHeaderText authorization then .ok { url, authorization := some authorization }
    else .error (.validation "invalid bearer token: failed to parse header value")

end Target

structure Socket where
  handler : Option String := none
  /-- Whether a socket is held; it may have been closed from outside. -/
  held : Bool := false
  isOpen : Bool := false
  delivered : List (String × String) := []
  deriving DecidableEq, Repr

namespace Socket

/-- Opens the socket unless it is open, where `shake` says what comes of a handshake. One that was
closed from outside is let go first. -/
def connect (s : Socket) (shake : Handshake → Except String Unit) (t : Target) :
    Except FeedError Unit × Socket :=
  if s.held && s.isOpen then (.ok (), s)
  else
    let s := { s with held := false }
    match t.handshake with
    | .error e => (.error e, s)
    | .ok h => match shake h with
      | .error detail => (.error (.network ("websocket connect failed: " ++ detail)), s)
      | .ok () => (.ok (), { s with held := true, isOpen := true })

def send (s : Socket) (written : Except String Unit) : Except FeedError Unit :=
  if !s.held then .error (.network "not connected")
  else if !s.isOpen then .error (.network "connection closed")
  else written.mapError fun detail => .network ("send failed: " ++ detail)

def disconnect (s : Socket) : Socket := { s with held := false, isOpen := false }

def deliver (s : Socket) (text : String) : Socket :=
  { s with delivered := s.delivered ++ (s.handler.map fun id => (id, text)).toList }

def closed (s : Socket) : Socket := { s with isOpen := false }

def receive (s : Socket) (i : Incoming) : Socket :=
  if i.isLast then s.closed
  else (i.text?.map s.deliver).getD s

def read (s : Socket) : List Turn → Socket
  | [] => s.closed
  | .cancelled :: _ => s.closed
  | .incoming i :: rest => if i.isLast then s.closed else (s.receive i).read rest

def describe (s : Socket) : String :=
  "WebSocketConnection \x7b connected: " ++ describeBool s.isOpen ++ ", .. \x7d"

end Socket

end MarketFeed
