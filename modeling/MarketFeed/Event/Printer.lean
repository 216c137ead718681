import MarketFeed.Event

/-!
# Events as JSON

An event is an object with its kind as `type` and one member for each of its fields.
-/

namespace MarketFeed

/-- A double as JSON, which has no numbers for those that are not finite. -/
def Json.ofBinary64 : Binary64 → Json
  | .nan => .string "nan"
  | .infinite negative => .string (if negative then "-inf" else "inf")
  | x => .number (.real x)

def Json.ofInt (i : Int) : Json := .number (.integer i)

namespace Event

def members (e : Event) : List (String × Json) :=
  let text := Json.string
  let float := Json.ofBinary64
  let int := Json.ofInt
  match e with
  | .trade e => [("symbol", text e.symbol), ("exchange", text e.exchange),
      ("price", float e.price), ("size", int e.size),
      ("cumulative_volume", int e.cumulativeVolume), ("date", int e.date), ("last", float e.last)]
  | .quote e => [("symbol", text e.symbol), ("bid", float e.bid), ("bid_size", int e.bidSize),
      ("bid_exchange", text e.bidExchange), ("bid_date", int e.bidDate), ("ask", float e.ask),
      ("ask_size", int e.askSize), ("ask_exchange", text e.askExchange),
      ("ask_date", int e.askDate)]
  | .summary e => [("symbol", text e.symbol), ("open", float e.opening), ("high", float e.high),
      ("low", float e.low), ("prev_close", float e.previousClose)]
  | .timesale e => [("symbol", text e.symbol), ("exchange", text e.exchange),
      ("bid", float e.bid), ("ask", float e.ask), ("last", float e.last), ("size", int e.size),
      ("date", int e.date), ("seq", int e.sequence), ("flag", text e.flag),
      ("cancel", .bool e.cancelled), ("correction", .bool e.correction),
      ("session", text e.session)]
  | .order e => [("id", int e.id), ("account", text e.account), ("symbol", text e.symbol),
      ("status", text e.status), ("side", text e.side), ("price", float e.price),
      ("stop_price", float e.stopPrice), ("avg_fill_price", float e.averageFillPrice),
      ("executed_quantity", float e.executedQuantity),
      ("last_fill_quantity", float e.lastFillQuantity),
      ("remaining_quantity", float e.remainingQuantity),
      ("transaction_date", text e.transactionDate), ("create_date", text e.createDate)]
  | .position e => [("account", text e.account), ("symbol", text e.symbol),
      ("quantity", float e.quantity), ("cost_basis", float e.costBasis),
      ("date_acquired", text e.dateAcquired)]

def toJson (e : Event) : Json := Json.ofMembers (("type", .string e.kind.name) :: e.members)

end Event

end MarketFeed
