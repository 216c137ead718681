import MarketFeed.Client.Lifecycle

/-!
# Subscriptions of a client

Subscribing registers a handler, notes the symbols, connects if need be and sends one frame.
Symbols that are added or removed later are subscribed or unsubscribed for every active market kind
while the client is connected.
-/

namespace MarketFeed.Client

variable {τ : Type} (w : World τ)

def sessionNotActive : FeedError := .validation "session is not active"

def symbolsEmpty : FeedError := .validation "symbol list is empty"

def notEstablished : FeedError := .network "connection not established"

/-- The symbols that a subscription is for: none for account kinds, and for market kinds those that
are not empty, of which there has to be one. -/
def subscriptionSymbols (kind : EventKind) (symbols : List String) :
    Except FeedError (List String) :=
  if kind.isAccount then .ok []
  else
    let named := symbols.filter (· ≠ "")
    if named.isEmpty then .error symbolsEmpty else .ok named

def sampleSymbols : Op τ Unit := do
  sample (.subscribedSymbols (← registry).symbols.size)

def ensureConnected : Op τ (Except FeedError Unit) := do
  if ← isConnected w then return .ok ()
  match ← connect w with
  | .error e => return .error e
  | .ok _ => return if ← isConnected w then .ok () else .error notEstablished

def prepareSubscription (kind : EventKind) (session : Session) (symbols : List String)
    (handler : Handler) : Op τ Unit := do
  setSession session
  modifyRegistry (·.setHandler kind handler)
  let _ ← withRegistry (·.addSymbols symbols)
  sampleSymbols

def sendSubscription (kind : EventKind) (symbols : List String) : Op τ (Except FeedError Unit) := do
  match ← sendFrame w (.subscribe kind symbols) with
  | .error e => return .error e
  | .ok _ =>
    modifyRegistry (·.activate kind)
    return .ok ()

def subscribe (kind : EventKind) (session : Session) (symbols : List String) (handler : Handler) :
    Op τ (Except FeedError Unit) := do
  if !session.isActive then return .error sessionNotActive
  match subscriptionSymbols kind symbols with
  | .error e => return .error e
  | .ok symbols =>
    prepareSubscription kind session symbols handler
    match ← ensureConnected w with
    | .error e => return .error e
    | .ok _ => sendSubscription w kind symbols

def registerHandler (kind : EventKind) (handler : Handler) : Op τ Bool :=
  withRegistry fun r => (r.hasHandler kind, r.setHandler kind handler)

def sendForMarketKinds (symbols : List String) (frame : EventKind → List String → Frame) :
    Op τ Unit := do
  if symbols.isEmpty then return
  if ← isConnected w then
    sendAll w ((← registry).activeMarketKinds.map fun kind => frame kind symbols)

def addSymbols (symbols : List String) : Op τ (List String) := do
  let added ← withRegistry (·.addSymbols symbols)
  sampleSymbols
  sendForMarketKinds w added Frame.subscribe
  return added

def removeSymbols (symbols : List String) : Op τ (List String) := do
  let removed ← withRegistry (·.removeSymbols symbols)
  sampleSymbols
  sendForMarketKinds w removed Frame.unsubscribe
  return removed

end MarketFeed.Client
