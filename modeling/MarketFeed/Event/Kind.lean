/-!
# Event kinds

The six kinds of events that a feed carries. Market kinds are subscribed for a list of symbols,
account kinds without one.
-/

namespace MarketFeed

inductive EventKind where
  | trade
  | quote
  | summary
  | timesale
  | order
  | position
  deriving DecidableEq, Repr, Inhabited

namespace EventKind

/-- All kinds, in the order in which they are listed and replayed. -/
def all : List EventKind := [trade, quote, summary, timesale, order, position]

theorem mem_all (k : EventKind) : k ∈ all := by
  cases k <;> decide

def name : EventKind → String
  | trade => "trade"
  | quote => "quote"
  | summary => "summary"
  | timesale => "timesale"
  | order => "order"
  | position => "position"

def ofName? (s : String) : Option EventKind := all.find? (·.name == s)

theorem ofName?_name (k : EventKind) : ofName? k.name = some k := by
  cases k <;> decide

def isAccount : EventKind → Bool
  | order | position => true
  | _ => false

end EventKind

end MarketFeed
