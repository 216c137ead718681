import MarketFeed.Event.Kind
import MarketFeed.Json

/-!
# Errors of a feed

Every failure is of one of five classes; the class decides how it is worded and counted.
-/

namespace MarketFeed

inductive FeedError where
  | network (detail : String)
  | api (status : Nat) (body : String)
  | parse (detail : String)
  /-- The caller asked for what cannot be done. -/
  | validation (detail : String)
  | callback (kind : EventKind) (detail : String)
  deriving DecidableEq, Repr

namespace FeedError

def label : FeedError → String
  | network _ => "network"
  | api .. => "api"
  | parse _ => "parse"
  | validation _ => "validation"
  | callback .. => "callback"

def message : FeedError → String
  | network detail => "network error: " ++ detail
  | api status body => "API error (" ++ Nat.repr status ++ "): " ++ body
  | parse detail => "parse error: " ++ detail
  | validation detail => "validation error: " ++ detail
  | callback kind detail => kind.name ++ " handler failed: " ++ detail

end FeedError

end MarketFeed
