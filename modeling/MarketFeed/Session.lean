import MarketFeed.Instant
import MarketFeed.Json.Parser
import MarketFeed.FeedError
import MarketFeed.Text.Described

/-!
# Streaming sessions

A session is the address and the id that allow one connection. The server names no expiry, so a
session is given one when it is created, a fixed time later.
-/

namespace MarketFeed

inductive SessionKind where
  | market
  | account
  deriving DecidableEq, Repr

namespace SessionKind

def name : SessionKind → String
  | market => "market"
  | account => "account"

def occurs (text : List Char) : List Char → Bool
  | [] => text.isEmpty
  | c :: cs => text.isPrefixOf (c :: cs) || occurs text cs

/-- Account sessions have `/accounts/` in their address, or `/accounts` at its end. -/
def ofUrl (url : String) : SessionKind :=
  if occurs "/accounts/".toList url.toList || "/accounts".toList.isSuffixOf url.toList then account
  else market

end SessionKind

structure Session where
  url : String
  id : String
  expiresAt : Instant
  deriving DecidableEq, Repr

namespace Session

def isActive (s : Session) : Bool := s.url ≠ "" && s.id ≠ ""

def kind (s : Session) : SessionKind := .ofUrl s.url

/-- A session made at `now` that lives for `ttl`, but at most up to the last instant. -/
def withTtl (now : Instant) (url id : String) (ttl : Duration) : Session :=
  ⟨url, id, (now.add? (.ofDuration ttl)).getD .latest⟩

def isExpired (s : Session) (now : Instant) : Bool := s.expiresAt ≤ now

/-- Whether the session expires within a margin from now. A margin that reaches beyond the last
instant includes every expiry. -/
def expiresWithin (s : Session) (now : Instant) (margin : Duration) : Bool :=
  match now.add? (.ofDuration margin) with
  | some deadline => s.expiresAt ≤ deadline
  | none => true

/-- A session for people to read, without its id. -/
def describe (s : Session) : String :=
  describeRecord "StreamSession"
    [("url", describeText s.url), ("session_id", redacted), ("expires_at", s.expiresAt.render),
      ("is_active", describeBool s.isActive)]

/-! ## Session responses -/

/-- The object that describes the session: the member `stream` if it is an object, or else the
whole value. -/
def description (body : Json) : Json :=
  match body.get? "stream" with
  | some (.object ms) => .object ms
  | _ => body

def missingMember (key : String) : FeedError :=
  .parse ("session response missing '" ++ key ++ "'")

def stringMember (j : Json) (key : String) : Except FeedError String :=
  match (j.get? key).bind Json.string? with
  | some s => .ok s
  | none => .error (missingMember key)

def notJson : FeedError := .parse "not a JSON text"

/-- Reads the body of a response to a request for a session. Empty texts are taken; the session is
then not active. -/
def ofBody (now : Instant) (ttl : Duration) (body : String) : Except FeedError Session :=
  match Json.parse? body with
  | none => .error notJson
  | some value => do
    let url ← stringMember (description value) "url"
    let id ← stringMember (description value) "sessionid"
    return withTtl now url id ttl

end Session

end MarketFeed
