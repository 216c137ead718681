import MarketFeed.Http
import MarketFeed.Session

/-!
# Creating and renewing sessions

A session is created by one request, to the endpoint of its kind. Renewing creates a new one of the
same kind; what was held stays as it is unless that succeeds.
-/

namespace MarketFeed

structure SessionSettings where
  ttl : Duration := .ofSeconds (8 * 60 * 60)
  renewMargin : Duration := .ofSeconds 300
  deriving DecidableEq, Repr, Inhabited

def SessionKind.path : SessionKind → String
  | market => "/v1/markets/events/session"
  | account => "/v1/accounts/events/session"

def SessionKind.request (kind : SessionKind) : Request := { method := .post, path := kind.path }

namespace Session

def ofResponse (now : Instant) (ttl : Duration) (r : Response) : Except FeedError Session :=
  if r.isSuccess then ofBody now ttl r.body else .error (.api r.status r.body)

def ofOutcome (now : Instant) (ttl : Duration) : Outcome → Except FeedError Session
  | .ok r => ofResponse now ttl r
  | .error e => .error e

end Session

namespace SessionSettings

variable {σ : Type}

def create (settings : SessionSettings) (service : Service σ) (now : Instant) (kind : SessionKind)
    (s : σ) : Except FeedError Session × σ :=
  let (outcome, s) := service.perform kind.request s
  (Session.ofOutcome now settings.ttl outcome, s)

def renew (settings : SessionSettings) (service : Service σ) (now : Instant) (session : Session)
    (s : σ) : Except FeedError Session × σ :=
  settings.create service now session.kind s

def renewIfExpiring (settings : SessionSettings) (service : Service σ) (now : Instant)
    (session : Session) (s : σ) : Except FeedError (Option Session) × σ :=
  if session.expiresWithin now settings.renewMargin then
    let (result, s) := settings.renew service now session s
    (result.map some, s)
  else (.ok none, s)

end SessionSettings

end MarketFeed
