import MarketFeed.Duration

/-!
# Attempts and the delays between them
-/

namespace MarketFeed

inductive NextAttempt where
  | exhausted
  | after (delay : Duration)
  /-- The attempt is counted, but its delay is out of range. -/
  | outOfRange
  deriving DecidableEq, Repr

end MarketFeed
