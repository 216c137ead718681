/-!
# Statistics of a feed

Counts of messages, errors and reconnections, and whether a connection was opened and a message
seen since the counts were last reset.
-/

namespace MarketFeed

structure Statistics where
  received : Nat := 0
  processed : Nat := 0
  errors : Nat := 0
  reconnects : Nat := 0
  started : Bool := false
  seen : Bool := false
  deriving DecidableEq, Repr, Inhabited

namespace Statistics

def dropped (s : Statistics) : Nat := s.received - s.processed

def countReceived (s : Statistics) : Statistics :=
  { s with received := s.received + 1, seen := true }

def countProcessed (s : Statistics) : Statistics := { s with processed := s.processed + 1 }

def countError (s : Statistics) : Statistics := { s with errors := s.errors + 1 }

def countReconnect (s : Statistics) : Statistics := { s with reconnects := s.reconnects + 1 }

def markStarted (s : Statistics) : Statistics := { s with started := true }

end Statistics

end MarketFeed
