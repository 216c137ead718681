import MarketFeed.Event.Field
import MarketFeed.Event.Kind

/-!
# Events

One structure for each kind of event, and how it is read from a message. A message may lack any
field or hold a malformed one; the event then has the field's default.
-/

namespace MarketFeed

structure Trade where
  symbol : String
  exchange : String
  price : Binary64
  size : Int
  cumulativeVolume : Int
  date : Int
  last : Binary64
  deriving DecidableEq, Repr

structure Quote where
  symbol : String
  bid : Binary64
  bidSize : Int
  bidExchange : String
  bidDate : Int
  ask : Binary64
  askSize : Int
  askExchange : String
  askDate : Int
  deriving DecidableEq, Repr

structure Summary where
  symbol : String
  opening : Binary64
  high : Binary64
  low : Binary64
  previousClose : Binary64
  deriving DecidableEq, Repr

structure Timesale where
  symbol : String
  exchange : String
  bid : Binary64
  ask : Binary64
  last : Binary64
  size : Int
  date : Int
  sequence : Int
  flag : String
  cancelled : Bool
  correction : Bool
  session : String
  deriving DecidableEq, Repr

structure Order where
  id : Int
  account : String
  symbol : String
  status : String
  side : String
  price : Binary64
  stopPrice : Binary64
  averageFillPrice : Binary64
  executedQuantity : Binary64
  lastFillQuantity : Binary64
  remainingQuantity : Binary64
  transactionDate : String
  createDate : String
  deriving DecidableEq, Repr

structure Position where
  account : String
  symbol : String
  quantity : Binary64
  costBasis : Binary64
  dateAcquired : String
  deriving DecidableEq, Repr

inductive Event where
  | trade (e : Trade)
  | quote (e : Quote)
  | summary (e : Summary)
  | timesale (e : Timesale)
  | order (e : Order)
  | position (e : Position)
  deriving DecidableEq, Repr

open MarketFeed.Field

def Trade.ofMessage (m : Json) : Trade where
  symbol := text m "symbol"
  exchange := text m "exch"
  price := float m "price"
  size := int m "size"
  cumulativeVolume := int m "cvol"
  date := int m "date"
  last := float m "last"

def Quote.ofMessage (m : Json) : Quote where
  symbol := text m "symbol"
  bid := float m "bid"
  bidSize := int m "bidsz"
  bidExchange := text m "bidexch"
  bidDate := int m "biddate"
  ask := float m "ask"
  askSize := int m "asksz"
  askExchange := text m "askexch"
  askDate := int m "askdate"

def Quote.spread (q : Quote) : Binary64 := q.ask - q.bid

def Summary.ofMessage (m : Json) : Summary where
  symbol := text m "symbol"
  opening := float m "open"
  high := float m "high"
  low := float m "low"
  previousClose := float m "prevClose"

def Timesale.ofMessage (m : Json) : Timesale where
  symbol := text m "symbol"
  exchange := text m "exch"
  bid := float m "bid"
  ask := float m "ask"
  last := float m "last"
  size := int m "size"
  date := int m "date"
  sequence := int m "seq"
  flag := text m "flag"
  cancelled := bool m "cancel"
  correction := bool m "correction"
  session := text m "session"

def Order.ofMessage (m : Json) : Order where
  id := int m "id"
  account := text m "account"
  symbol := text m "symbol"
  status := text m "status"
  side := text m "side"
  price := float m "price"
  stopPrice := float m "stop_price"
  averageFillPrice := float m "avg_fill_price"
  executedQuantity := float m "executed_quantity"
  lastFillQuantity := float m "last_fill_quantity"
  remainingQuantity := float m "remaining_quantity"
  transactionDate := text m "transaction_date"
  createDate := text m "create_date"

def Position.ofMessage (m : Json) : Position where
  account := text m "account"
  symbol := text m "symbol"
  quantity := float m "quantity"
  costBasis := float m "cost_basis"
  dateAcquired := text m "date_acquired"

namespace Event

def ofMessage (m : Json) : EventKind → Event
  | .trade => trade (.ofMessage m)
  | .quote => quote (.ofMessage m)
  | .summary => summary (.ofMessage m)
  | .timesale => timesale (.ofMessage m)
  | .order => order (.ofMessage m)
  | .position => position (.ofMessage m)

def kind : Event → EventKind
  | trade _ => .trade
  | quote _ => .quote
  | summary _ => .summary
  | timesale _ => .timesale
  | order _ => .order
  | position _ => .position

def symbol : Event → String
  | trade e => e.symbol
  | quote e => e.symbol
  | summary e => e.symbol
  | timesale e => e.symbol
  | order e => e.symbol
  | position e => e.symbol

theorem kind_ofMessage (m : Json) (k : EventKind) : (ofMessage m k).kind = k := by
  cases k <;> rfl

end Event

end MarketFeed
