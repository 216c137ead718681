import MarketFeed.Journal
import MarketFeed.Json.Parser
import MarketFeed.Registry

/-!
# Dispatching messages

`Dispatcher.dispatch` takes one text that came in to at most one handler: it reads the text, finds
the kind, asks the registry for the route, holds back a repeated message if it is told to, and runs
the handler. Its verdict says which of these ended the way of the message.
-/

namespace MarketFeed

inductive Verdict where
  | delivered (kind : EventKind)
  | malformed
  | untyped
  | unknownType
  | filteredSymbol
  | filteredExchange
  | duplicate
  | noHandler
  | handlerFailed (kind : EventKind)
  deriving DecidableEq, Repr

structure DispatchRules where
  /-- Hold back a message that equals the one before it of its kind and symbol. -/
  filterDuplicates : Bool := false
  /-- The exchanges that pass when no filter is set. -/
  validExchanges : List String := []
  deriving DecidableEq, Repr, Inhabited

/-- The last message of each kind and symbol that went to a handler. -/
abbrev Memory := EventKind → String → Option Json

namespace Memory

def empty : Memory := fun _ _ => none

def remember (m : Memory) (kind : EventKind) (symbol : String) (message : Json) : Memory :=
  fun k s => if k = kind ∧ s = symbol then some message else m k s

def repeats (m : Memory) (kind : EventKind) (symbol : String) (message : Json) : Bool :=
  match m kind symbol with
  | some last => last.same message
  | none => false

end Memory

structure Dispatcher where
  registry : Registry := {}
  journal : Journal := {}
  memory : Memory := .empty
  /-- The events that were handed out, oldest first, with the handler's name. -/
  deliveries : List (String × Event) := []

namespace Dispatcher

instance : Inhabited Dispatcher := ⟨{}⟩

def exchangeKeys : EventKind → List String
  | .trade | .timesale => ["exch"]
  | .quote => ["bidexch", "askexch"]
  | .summary | .order | .position => []

def textMember? (message : Json) (key : String) : Option String :=
  (message.get? key).bind Json.string?

def routingSymbol (message : Json) : String := (textMember? message "symbol").getD ""

def carriedExchanges (kind : EventKind) (message : Json) : List String :=
  (exchangeKeys kind).filterMap (textMember? message)

def modifyJournal (d : Dispatcher) (f : Journal → Journal) : Dispatcher :=
  { d with journal := f d.journal }

def sample (d : Dispatcher) (s : Sample) : Dispatcher := d.modifyJournal (·.sample s)

def invoke (d : Dispatcher) (handler : Handler) (event : Event) : Verdict × Dispatcher :=
  let reply := handler.reply d.deliveries.length event
  let kind := event.kind
  let ran := { d with deliveries := d.deliveries ++ [(handler.id, event)] }.sample
    (.dispatchTime kind)
  match reply.failure? with
  | none =>
    (.delivered kind,
      ran.modifyJournal fun j => (j.modifyStatistics (·.countProcessed)).sample (.processed kind))
  | some text => (.handlerFailed kind, ran.modifyJournal (·.report (.callback kind text)))

def dispatchKind (d : Dispatcher) (rules : DispatchRules) (kind : EventKind) (message : Json) :
    Verdict × Dispatcher :=
  let symbol := routingSymbol message
  match d.registry.route rules.validExchanges kind symbol (carriedExchanges kind message) with
  | .filteredSymbol => (.filteredSymbol, d.sample (.filtered kind .symbol))
  | .filteredExchange => (.filteredExchange, d.sample (.filtered kind .exchange))
  | .noHandler => (.noHandler, d)
  | .deliver handler =>
    if rules.filterDuplicates then
      if d.memory.repeats kind symbol message then
        (.duplicate, d.sample (.filtered kind .duplicate))
      else
        { d with memory := d.memory.remember kind symbol message }.invoke handler
          (.ofMessage message kind)
    else d.invoke handler (.ofMessage message kind)

def malformedMessage : FeedError := .parse "malformed message: not a JSON text"

def dispatch (d : Dispatcher) (rules : DispatchRules) (text : String) : Verdict × Dispatcher :=
  let d := d.modifyJournal (·.modifyStatistics (·.countReceived))
  match Json.parse? text with
  | none =>
    (.malformed, d.modifyJournal fun j => (j.sample (.received none)).report malformedMessage)
  | some message =>
    match textMember? message "type" with
    | none => (.untyped, d.sample (.received none))
    | some name =>
      match EventKind.ofName? name with
      | none => (.unknownType, d.sample (.received none))
      | some kind => (d.sample (.received (some kind))).dispatchKind rules kind message

theorem invoke_registry (d : Dispatcher) (handler : Handler) (event : Event) :
    (d.invoke handler event).2.registry = d.registry := by
  unfold invoke
  dsimp only
  cases (handler.reply d.deliveries.length event).failure? <;> rfl

theorem dispatchKind_registry (d : Dispatcher) (rules : DispatchRules) (kind : EventKind)
    (message : Json) : (d.dispatchKind rules kind message).2.registry = d.registry := by
  unfold dispatchKind
  dsimp only
  cases d.registry.route rules.validExchanges kind (routingSymbol message)
    (carriedExchanges kind message) with
  | filteredSymbol => rfl
  | filteredExchange => rfl
  | noHandler => rfl
  | deliver handler =>
    dsimp only
    split
    · split
      · rfl
      · exact invoke_registry _ handler _
    · exact invoke_registry d handler _

theorem dispatch_registry (d : Dispatcher) (rules : DispatchRules) (text : String) :
    (d.dispatch rules text).2.registry = d.registry := by
  unfold dispatch
  dsimp only
  cases Json.parse? text with
  | none => rfl
  | some message =>
    dsimp only
    cases textMember? message "type" with
    | none => rfl
    | some name =>
      dsimp only
      cases EventKind.ofName? name with
      | none => rfl
      | some kind => exact dispatchKind_registry _ rules kind message

def resetDuplicates (d : Dispatcher) : Dispatcher := { d with memory := .empty }

end Dispatcher

end MarketFeed
