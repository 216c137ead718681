import MarketFeed.Session

/-!
# Connect targets

Where a connection is opened, for which session and with which token.
-/

namespace MarketFeed

structure Target where
  url : String
  sessionId : String
  /-- Empty when no token is configured. -/
  token : String
  deriving DecidableEq, Repr

namespace Target

def ofSession (session : Session) (token : String) : Target := ⟨session.url, session.id, token⟩

/-- A target for people to read, without its secrets. -/
def describe (t : Target) : String :=
  describeRecord "ConnectTarget"
    [("url", describeText t.url), ("session_id", redacted), ("bearer_token", redacted)]

end Target

end MarketFeed
