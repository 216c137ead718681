import MarketFeed.Event.Kind

/-!
# Metric samples

Each thing that is measured is a sample of one series. A counter adds its samples up, a gauge keeps
the last one and a histogram counts them.
-/

namespace MarketFeed

inductive FilterReason where
  | symbol
  | exchange
  | duplicate
  deriving DecidableEq, Repr

inductive StatusClass where
  | success
  | redirection
  | clientError
  | serverError
  | other
  deriving DecidableEq, Repr

namespace StatusClass

def ofStatus (status : Nat) : StatusClass :=
  match status / 100 with
  | 2 => success
  | 3 => redirection
  | 4 => clientError
  | 5 => serverError
  | _ => other

def name : StatusClass → String
  | success => "2xx"
  | redirection => "3xx"
  | clientError => "4xx"
  | serverError => "5xx"
  | other => "other"

end StatusClass

inductive Sample where
  /-- A message came in; its kind is known if its type is. -/
  | received (kind : Option EventKind)
  | processed (kind : EventKind)
  | filtered (kind : EventKind) (reason : FilterReason)
  | dispatchTime (kind : EventKind)
  | connected (value : Bool)
  | subscribedSymbols (count : Nat)
  | error (label : String)
  | reconnect
  | heartbeatFailure
  | request (method : String) (status : StatusClass)
  deriving DecidableEq, Repr

namespace FilterReason

def name : FilterReason → String
  | symbol => "symbol"
  | exchange => "exchange"
  | duplicate => "duplicate"

end FilterReason

namespace Sample

def series : Sample → String × List (String × String)
  | received kind =>
    ("tradier_stream_messages_received_total",
      [("kind", (kind.map EventKind.name).getD "unknown")])
  | processed kind => ("tradier_stream_messages_processed_total", [("kind", kind.name)])
  | filtered kind reason =>
    ("tradier_stream_messages_filtered_total", [("kind", kind.name), ("reason", reason.name)])
  | dispatchTime kind => ("tradier_stream_dispatch_seconds", [("kind", kind.name)])
  | connected _ => ("tradier_stream_connected", [])
  | subscribedSymbols _ => ("tradier_stream_subscribed_symbols", [])
  | error label => ("tradier_stream_errors_total", [("error_type", label)])
  | reconnect => ("tradier_stream_reconnects_total", [])
  | heartbeatFailure => ("tradier_stream_heartbeat_failures_total", [])
  | request method status =>
    ("tradier_stream_http_requests_total", [("method", method), ("status", status.name)])

/-- The value that a gauge is set to; the other samples count. -/
def gauge? : Sample → Option Nat
  | connected value => some (if value then 1 else 0)
  | subscribedSymbols count => some count
  | _ => none

def apply (s : Sample) (value : Nat) : Nat := s.gauge?.getD (value + 1)

def seriesName (s : Sample) : String :=
  let (name, labels) := s.series
  if labels.isEmpty then name
  else name ++ "\x7b" ++ ",".intercalate (labels.map fun l => l.1 ++ "=" ++ l.2) ++ "\x7d"

def totals (samples : List Sample) : List (String × Nat) :=
  samples.foldl record []
where
  record (acc : List (String × Nat)) (s : Sample) : List (String × Nat) :=
    match acc with
    | [] => [(s.seriesName, s.apply 0)]
    | (n, v) :: rest =>
      if n = s.seriesName then (n, s.apply v) :: rest else (n, v) :: record rest s

end Sample

end MarketFeed
