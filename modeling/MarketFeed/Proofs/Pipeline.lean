import MarketFeed.Dispatcher

/-!
# The way of a message

A text that comes in ends in one of nine ways. `Fate` gives the condition of each of them, in the
order in which they are tried, and the event that is handed to a handler there, if one is. Dispatching
a text is exactly that: it ends, whatever handler and listener do, and at most one event is handed out.
-/

namespace MarketFeed

theorem EventKind.ofName?_eq_none {name : String} :
    ofName? name = none ↔ ∀ kind : EventKind, kind.name ≠ name := by
  simp [ofName?, mem_all]

def Json.IsMessage (text : String) (kind : EventKind) (message : Json) : Prop :=
  Json.parse? text = some message ∧ message.get? "type" = some (.string kind.name)

theorem Json.IsMessage.unique {text : String} {kind kind' : EventKind} {message message' : Json}
    (h : IsMessage text kind message) (h' : IsMessage text kind' message') :
    kind = kind' ∧ message = message' := by
  obtain ⟨hp, ht⟩ := h
  obtain ⟨hp', ht'⟩ := h'
  obtain rfl : message = message' := Option.some.inj (hp.symm.trans hp')
  have hn : kind.name = kind'.name := Json.string.inj (Option.some.inj (ht.symm.trans ht'))
  have hk := EventKind.ofName?_name kind
  rw [hn, EventKind.ofName?_name] at hk
  exact ⟨(Option.some.inj hk).symm, rfl⟩

namespace Dispatcher

def Names (kind : EventKind) (message : Json) (exchange : String) : Prop :=
  exchange ≠ "" ∧ ∃ key ∈ exchangeKeys kind, message.get? key = some (.string exchange)

theorem textMember?_eq_some {message : Json} {key s : String} :
    textMember? message key = some s ↔ message.get? key = some (.string s) := by
  unfold textMember?
  cases message.get? key with
  | none => simp
  | some value => cases value <;> simp [Json.string?]

theorem textMember?_eq_none {message : Json} {key : String} :
    textMember? message key = none ↔ ∀ s, message.get? key ≠ some (.string s) := by
  constructor
  · intro h s hs
    rw [textMember?_eq_some.2 hs] at h
    cases h
  · intro h
    cases hm : textMember? message key with
    | none => rfl
    | some s => exact absurd (textMember?_eq_some.1 hm) (h s)

theorem mem_carriedExchanges {kind : EventKind} {message : Json} {exchange : String} :
    exchange ∈ (carriedExchanges kind message).filter (· ≠ "") ↔ Names kind message exchange := by
  unfold carriedExchanges Names
  simp only [List.mem_filter, List.mem_filterMap, textMember?_eq_some, decide_eq_true_eq]
  exact and_comm

end Dispatcher

namespace Registry

open Dispatcher

def BarsSymbol (r : Registry) (message : Json) : Prop :=
  r.symbolFilter ≠ [] ∧ routingSymbol message ∉ r.symbolFilter

/-- A message is barred by the exchanges it names only if it names any. -/
def BarsExchange (r : Registry) (configured : List String) (kind : EventKind) (message : Json) :
    Prop :=
  r.effectiveExchanges configured ≠ [] ∧ (∃ x, Names kind message x) ∧
    ∀ x, Names kind message x → x ∉ r.effectiveExchanges configured

theorem symbolPasses_iff {r : Registry} {message : Json} :
    r.symbolPasses (routingSymbol message) = true ↔ ¬ r.BarsSymbol message := by
  unfold symbolPasses BarsSymbol
  simp [Decidable.imp_iff_not_or]

theorem exchangesPass_iff {r : Registry} {configured : List String} {kind : EventKind}
    {message : Json} : r.exchangesPass configured (carriedExchanges kind message) = true ↔
      ¬ r.BarsExchange configured kind message := by
  have empty : (carriedExchanges kind message).filter (· ≠ "") = [] ↔ ¬ ∃ x, Names kind message x := by
    simp only [List.eq_nil_iff_forall_not_mem, mem_carriedExchanges, not_exists]
  have listed : ((carriedExchanges kind message).filter (· ≠ "")).any
      (r.effectiveExchanges configured).contains = true ↔
        ∃ x, Names kind message x ∧ x ∈ r.effectiveExchanges configured := by
    simp only [List.any_eq_true, mem_carriedExchanges, List.contains_iff_mem]
  unfold exchangesPass BarsExchange
  simp only [Bool.or_eq_true, List.isEmpty_iff, empty, listed]
  constructor
  · rintro ((he | hn) | ⟨x, hx, hm⟩) ⟨h₁, h₂, h₃⟩
    · exact h₁ he
    · exact hn h₂
    · exact h₃ x hx hm
  · intro h
    by_cases he : r.effectiveExchanges configured = []
    · exact .inl (.inl he)
    by_cases hm : ∃ x, Names kind message x ∧ x ∈ r.effectiveExchanges configured
    · exact .inr hm
    · exact .inl (.inr fun hn => h ⟨he, hn, fun x hx hl => hm ⟨x, hx, hl⟩⟩)

structure Admits (r : Registry) (configured : List String) (kind : EventKind) (message : Json)
    (handler : Handler) : Prop where
  symbol : ¬ r.BarsSymbol message
  exchange : ¬ r.BarsExchange configured kind message
  registered : r.handlers kind = some handler

section
variable {r : Registry} {configured : List String} {kind : EventKind} {message : Json}

theorem route_filteredSymbol (hs : r.BarsSymbol message) :
    r.route configured kind (routingSymbol message) (carriedExchanges kind message) =
      .filteredSymbol := by
  have h : r.symbolPasses (routingSymbol message) = false :=
    Bool.not_eq_true _ ▸ fun hp => symbolPasses_iff.1 hp hs
  simp [route, h]

theorem route_filteredExchange (hs : ¬ r.BarsSymbol message)
    (he : r.BarsExchange configured kind message) :
    r.route configured kind (routingSymbol message) (carriedExchanges kind message) =
      .filteredExchange := by
  have h : r.exchangesPass configured (carriedExchanges kind message) = false :=
    Bool.not_eq_true _ ▸ fun hp => exchangesPass_iff.1 hp he
  simp [route, symbolPasses_iff.2 hs, h]

theorem route_noHandler (hs : ¬ r.BarsSymbol message)
    (he : ¬ r.BarsExchange configured kind message) (hh : r.handlers kind = none) :
    r.route configured kind (routingSymbol message) (carriedExchanges kind message) =
      .noHandler := by
  simp [route, symbolPasses_iff.2 hs, exchangesPass_iff.2 he, hh]

theorem route_deliver {handler : Handler} (ha : r.Admits configured kind message handler) :
    r.route configured kind (routingSymbol message) (carriedExchanges kind message) =
      .deliver handler := by
  simp [route, symbolPasses_iff.2 ha.symbol, exchangesPass_iff.2 ha.exchange, ha.registered]

end

end Registry

theorem Reply.failure?_eq_none {reply : Reply} : reply.failure? = none ↔ reply = .done := by
  cases reply <;> simp [failure?]

namespace Dispatcher

def Repeats (d : Dispatcher) (rules : DispatchRules) (kind : EventKind) (message : Json) : Prop :=
  rules.filterDuplicates = true ∧
    ∃ last, d.memory kind (routingSymbol message) = some last ∧ last.same message = true

def counted (d : Dispatcher) (kind : Option EventKind) : Dispatcher :=
  d.modifyJournal fun j => (j.modifyStatistics (·.countReceived)).sample (.received kind)

def noting (d : Dispatcher) (rules : DispatchRules) (kind : EventKind) (message : Json) :
    Dispatcher :=
  if rules.filterDuplicates then
    { d with memory := d.memory.remember kind (routingSymbol message) message }
  else d

def handing (d : Dispatcher) (handler : Handler) (event : Event) : Dispatcher :=
  { d with deliveries := d.deliveries ++ [(handler.id, event)] }.sample (.dispatchTime event.kind)

@[simp]
theorem counted_registry (d : Dispatcher) (kind : Option EventKind) :
    (d.counted kind).registry = d.registry := rfl

@[simp]
theorem counted_deliveries (d : Dispatcher) (kind : Option EventKind) :
    (d.counted kind).deliveries = d.deliveries := rfl

@[simp]
theorem noting_journal (d : Dispatcher) (rules : DispatchRules) (kind : EventKind)
    (message : Json) : (d.noting rules kind message).journal = d.journal := by
  unfold noting
  split <;> rfl

@[simp]
theorem noting_deliveries (d : Dispatcher) (rules : DispatchRules) (kind : EventKind)
    (message : Json) : (d.noting rules kind message).deliveries = d.deliveries := by
  unfold noting
  split <;> rfl

theorem repeats_iff {m : Memory} {kind : EventKind} {symbol : String} {message : Json} :
    m.repeats kind symbol message = true ↔
      ∃ last, m kind symbol = some last ∧ last.same message = true := by
  unfold Memory.repeats
  cases m kind symbol <;> simp

/-! ## What each way does -/

section
variable {d : Dispatcher} {rules : DispatchRules} {text : String} {kind : EventKind}
  {message : Json} {handler : Handler} {event : Event}

theorem invoke_done (h : handler.reply d.deliveries.length event = .done) :
    d.invoke handler event =
      (.delivered event.kind, (d.handing handler event).modifyJournal fun j =>
        (j.modifyStatistics (·.countProcessed)).sample (.processed event.kind)) := by
  simp only [invoke, h]
  rfl

theorem invoke_failed {detail : String}
    (h : (handler.reply d.deliveries.length event).failure? = some detail) :
    d.invoke handler event =
      (.handlerFailed event.kind,
        (d.handing handler event).modifyJournal (·.report (.callback event.kind detail))) := by
  simp only [invoke, h]
  rfl

theorem dispatch_malformed (h : Json.parse? text = none) :
    d.dispatch rules text =
      (.malformed, (d.counted none).modifyJournal (·.report malformedMessage)) := by
  simp only [dispatch, h]
  rfl

theorem dispatch_untyped (h : Json.parse? text = some message)
    (ht : ∀ name, message.get? "type" ≠ some (.string name)) :
    d.dispatch rules text = (.untyped, d.counted none) := by
  simp only [dispatch, h, textMember?_eq_none.2 ht]
  rfl

theorem dispatch_unknownType {name : String} (h : Json.parse? text = some message)
    (ht : message.get? "type" = some (.string name)) (hn : ∀ k : EventKind, k.name ≠ name) :
    d.dispatch rules text = (.unknownType, d.counted none) := by
  simp only [dispatch, h, textMember?_eq_some.2 ht, EventKind.ofName?_eq_none.2 hn]
  rfl

theorem dispatch_message (h : Json.IsMessage text kind message) :
    d.dispatch rules text = (d.counted (some kind)).dispatchKind rules kind message := by
  simp only [dispatch, h.1, textMember?_eq_some.2 h.2, EventKind.ofName?_name]
  rfl

theorem dispatch_filteredSymbol (h : Json.IsMessage text kind message)
    (hs : d.registry.BarsSymbol message) :
    d.dispatch rules text =
      (.filteredSymbol, (d.counted (some kind)).sample (.filtered kind .symbol)) := by
  simp only [dispatch_message h, dispatchKind, counted_registry, Registry.route_filteredSymbol hs]

theorem dispatch_filteredExchange (h : Json.IsMessage text kind message)
    (hs : ¬ d.registry.BarsSymbol message)
    (he : d.registry.BarsExchange rules.validExchanges kind message) :
    d.dispatch rules text =
      (.filteredExchange, (d.counted (some kind)).sample (.filtered kind .exchange)) := by
  simp only [dispatch_message h, dispatchKind, counted_registry,
    Registry.route_filteredExchange hs he]

theorem dispatch_noHandler (h : Json.IsMessage text kind message)
    (hs : ¬ d.registry.BarsSymbol message)
    (he : ¬ d.registry.BarsExchange rules.validExchanges kind message)
    (hh : d.registry.handlers kind = none) :
    d.dispatch rules text = (.noHandler, d.counted (some kind)) := by
  simp only [dispatch_message h, dispatchKind, counted_registry, Registry.route_noHandler hs he hh]

theorem dispatch_duplicate (h : Json.IsMessage text kind message)
    (ha : d.registry.Admits rules.validExchanges kind message handler)
    (hr : d.Repeats rules kind message) :
    d.dispatch rules text =
      (.duplicate, (d.counted (some kind)).sample (.filtered kind .duplicate)) := by
  have hm : (d.counted (some kind)).memory.repeats kind (routingSymbol message) message = true :=
    repeats_iff.2 hr.2
  simp only [dispatch_message h, dispatchKind, counted_registry, Registry.route_deliver ha,
    if_pos hr.1, if_pos hm]

theorem dispatch_invoke (h : Json.IsMessage text kind message)
    (ha : d.registry.Admits rules.validExchanges kind message handler)
    (hr : ¬ d.Repeats rules kind message) :
    d.dispatch rules text =
      ((d.counted (some kind)).noting rules kind message).invoke handler
        (.ofMessage message kind) := by
  simp only [dispatch_message h, dispatchKind, counted_registry, Registry.route_deliver ha, noting]
  by_cases hf : rules.filterDuplicates = true
  · have hm : ¬ (d.counted (some kind)).memory.repeats kind (routingSymbol message) message = true :=
      fun h => hr ⟨hf, repeats_iff.1 h⟩
    rw [if_pos hf, if_pos hf, if_neg hm]
  · rw [if_neg hf, if_neg hf]

def handingMessage (d : Dispatcher) (rules : DispatchRules) (kind : EventKind) (message : Json)
    (handler : Handler) : Dispatcher :=
  ((d.counted (some kind)).noting rules kind message).handing handler (.ofMessage message kind)

theorem handingMessage_journal : (d.handingMessage rules kind message handler).journal =
    (d.counted (some kind)).journal.sample (.dispatchTime kind) := by
  simp [handingMessage, handing, Dispatcher.sample, modifyJournal, Event.kind_ofMessage]

theorem dispatch_delivered (h : Json.IsMessage text kind message)
    (ha : d.registry.Admits rules.validExchanges kind message handler)
    (hr : ¬ d.Repeats rules kind message)
    (hd : handler.reply d.deliveries.length (.ofMessage message kind) = .done) :
    d.dispatch rules text =
      (.delivered kind, (d.handingMessage rules kind message handler).modifyJournal fun j =>
        (j.modifyStatistics (·.countProcessed)).sample (.processed kind)) := by
  rw [dispatch_invoke h ha hr, invoke_done (by simpa using hd), Event.kind_ofMessage]
  rfl

theorem dispatch_handlerFailed {detail : String} (h : Json.IsMessage text kind message)
    (ha : d.registry.Admits rules.validExchanges kind message handler)
    (hr : ¬ d.Repeats rules kind message)
    (hd : (handler.reply d.deliveries.length (.ofMessage message kind)).failure? = some detail) :
    d.dispatch rules text =
      (.handlerFailed kind, (d.handingMessage rules kind message handler).modifyJournal
        (·.report (.callback kind detail))) := by
  rw [dispatch_invoke h ha hr, invoke_failed (by simpa using hd), Event.kind_ofMessage]
  rfl

end

/-! ## How a message ends -/

/-- How a text ends, and which event is handed out to the handler of which name. -/
inductive Fate (d : Dispatcher) (rules : DispatchRules) (text : String) :
    Verdict → Option (String × Event) → Prop
  | malformed (h : Json.parse? text = none) : Fate d rules text .malformed none
  | untyped {message : Json} (h : Json.parse? text = some message)
      (ht : ∀ name, message.get? "type" ≠ some (.string name)) : Fate d rules text .untyped none
  | unknownType {message : Json} {name : String} (h : Json.parse? text = some message)
      (ht : message.get? "type" = some (.string name)) (hn : ∀ kind : EventKind, kind.name ≠ name) :
      Fate d rules text .unknownType none
  | filteredSymbol {kind : EventKind} {message : Json} (h : Json.IsMessage text kind message)
      (hs : d.registry.BarsSymbol message) : Fate d rules text .filteredSymbol none
  | filteredExchange {kind : EventKind} {message : Json} (h : Json.IsMessage text kind message)
      (hs : ¬ d.registry.BarsSymbol message)
      (he : d.registry.BarsExchange rules.validExchanges kind message) :
      Fate d rules text .filteredExchange none
  | noHandler {kind : EventKind} {message : Json} (h : Json.IsMessage text kind message)
      (hs : ¬ d.registry.BarsSymbol message)
      (he : ¬ d.registry.BarsExchange rules.validExchanges kind message)
      (hh : d.registry.handlers kind = none) : Fate d rules text .noHandler none
  | duplicate {kind : EventKind} {message : Json} {handler : Handler}
      (h : Json.IsMessage text kind message)
      (ha : d.registry.Admits rules.validExchanges kind message handler)
      (hr : d.Repeats rules kind message) : Fate d rules text .duplicate none
  | delivered {kind : EventKind} {message : Json} {handler : Handler}
      (h : Json.IsMessage text kind message)
      (ha : d.registry.Admits rules.validExchanges kind message handler)
      (hr : ¬ d.Repeats rules kind message)
      (hd : handler.reply d.deliveries.length (.ofMessage message kind) = .done) :
      Fate d rules text (.delivered kind) (some (handler.id, .ofMessage message kind))
  | handlerFailed {kind : EventKind} {message : Json} {handler : Handler}
      (h : Json.IsMessage text kind message)
      (ha : d.registry.Admits rules.validExchanges kind message handler)
      (hr : ¬ d.Repeats rules kind message)
      (hd : handler.reply d.deliveries.length (.ofMessage message kind) ≠ .done) :
      Fate d rules text (.handlerFailed kind) (some (handler.id, .ofMessage message kind))

section
variable {d : Dispatcher} {rules : DispatchRules} {text : String}

theorem exists_fate (d : Dispatcher) (rules : DispatchRules) (text : String) :
    ∃ v handed, Fate d rules text v handed := by
  -- The questions are put in the order of the constructors; each answer ends the way or goes on.
  cases h : Json.parse? text with
  | none => exact ⟨_, _, .malformed h⟩
  | some message =>
  by_cases ht : ∃ name, message.get? "type" = some (.string name)
  case neg => exact ⟨_, _, .untyped h fun name hn => ht ⟨name, hn⟩⟩
  obtain ⟨name, ht⟩ := ht
  by_cases hn : ∃ kind : EventKind, kind.name = name
  case neg => exact ⟨_, _, .unknownType h ht fun kind hk => hn ⟨kind, hk⟩⟩
  obtain ⟨kind, rfl⟩ := hn
  have hm : Json.IsMessage text kind message := ⟨h, ht⟩
  by_cases hs : d.registry.BarsSymbol message
  · exact ⟨_, _, .filteredSymbol hm hs⟩
  by_cases he : d.registry.BarsExchange rules.validExchanges kind message
  · exact ⟨_, _, .filteredExchange hm hs he⟩
  cases hh : d.registry.handlers kind with
  | none => exact ⟨_, _, .noHandler hm hs he hh⟩
  | some handler =>
  have ha : d.registry.Admits rules.validExchanges kind message handler := ⟨hs, he, hh⟩
  by_cases hr : d.Repeats rules kind message
  · exact ⟨_, _, .duplicate hm ha hr⟩
  by_cases hd : handler.reply d.deliveries.length (.ofMessage message kind) = .done
  · exact ⟨_, _, .delivered hm ha hr hd⟩
  · exact ⟨_, _, .handlerFailed hm ha hr hd⟩

theorem Fate.dispatch {v : Verdict} {handed : Option (String × Event)}
    (f : Fate d rules text v handed) : (d.dispatch rules text).1 = v ∧
      (d.dispatch rules text).2.deliveries = d.deliveries ++ handed.toList := by
  have none_handed : d.deliveries = d.deliveries ++ [] := (List.append_nil _).symm
  cases f with
  | malformed h => exact dispatch_malformed h ▸ ⟨rfl, none_handed⟩
  | untyped h ht => exact dispatch_untyped h ht ▸ ⟨rfl, none_handed⟩
  | unknownType h ht hn => exact dispatch_unknownType h ht hn ▸ ⟨rfl, none_handed⟩
  | filteredSymbol h hs => exact dispatch_filteredSymbol h hs ▸ ⟨rfl, none_handed⟩
  | filteredExchange h hs he => exact dispatch_filteredExchange h hs he ▸ ⟨rfl, none_handed⟩
  | noHandler h hs he hh => exact dispatch_noHandler h hs he hh ▸ ⟨rfl, none_handed⟩
  | duplicate h ha hr => exact dispatch_duplicate h ha hr ▸ ⟨rfl, none_handed⟩
  | delivered h ha hr hd =>
    rw [dispatch_delivered h ha hr hd]
    exact ⟨rfl, congrArg (· ++ _) (noting_deliveries ..)⟩
  | handlerFailed h ha hr hd =>
    obtain ⟨detail, hf⟩ := Option.ne_none_iff_exists'.1 fun h => hd (Reply.failure?_eq_none.1 h)
    rw [dispatch_handlerFailed h ha hr hf]
    exact ⟨rfl, congrArg (· ++ _) (noting_deliveries ..)⟩

theorem append_toList_inj {α : Type} {l : List α} {o o' : Option α} :
    l ++ o.toList = l ++ o'.toList ↔ o = o' := by
  rw [List.append_cancel_left_eq]
  cases o <;> cases o' <;> simp

theorem fate_iff {v : Verdict} {handed : Option (String × Event)} :
    Fate d rules text v handed ↔ (d.dispatch rules text).1 = v ∧
      (d.dispatch rules text).2.deliveries = d.deliveries ++ handed.toList := by
  constructor
  · exact Fate.dispatch
  rintro ⟨hv, hd⟩
  obtain ⟨v', handed', f⟩ := exists_fate d rules text
  obtain ⟨hv', hd'⟩ := f.dispatch
  have he : handed' = handed := append_toList_inj.1 (hd'.symm.trans hd)
  rw [← hv, hv', ← he]
  exact f

/-- Dispatching ends for every text, whatever the handlers and the listener do. It hands out at most
one event, and what it does is the one fate of the text. -/
theorem dispatch_fate (d : Dispatcher) (rules : DispatchRules) (text : String) :
    ∃ handed : Option (String × Event),
      (d.dispatch rules text).2.deliveries = d.deliveries ++ handed.toList ∧
        ∀ v handed', Fate d rules text v handed' ↔
          v = (d.dispatch rules text).1 ∧ handed' = handed := by
  obtain ⟨v, handed, f⟩ := exists_fate d rules text
  have hd := f.dispatch.2
  refine ⟨handed, hd, fun v' handed' => ?_⟩
  rw [fate_iff, hd, append_toList_inj]
  exact and_congr eq_comm eq_comm

/-! ## What is handed out -/

variable {kind : EventKind} {message : Json}

theorem filteredSymbol_iff (h : Json.IsMessage text kind message) :
    (d.dispatch rules text).1 = .filteredSymbol ↔ d.registry.BarsSymbol message := by
  constructor
  · intro hv
    obtain ⟨v, handed, f⟩ := exists_fate d rules text
    rw [f.dispatch.1] at hv
    subst hv
    cases f with
    | filteredSymbol h' hs => exact (h.unique h').2 ▸ hs
  · intro hs
    rw [dispatch_filteredSymbol h hs]

theorem handed_iff {id : String} {e : Event} (h : Json.IsMessage text kind message) :
    (d.dispatch rules text).2.deliveries = d.deliveries ++ [(id, e)] ↔
      e = .ofMessage message kind ∧ ¬ d.Repeats rules kind message ∧ ∃ handler : Handler,
        handler.id = id ∧ d.registry.Admits rules.validExchanges kind message handler := by
  constructor
  · intro hd
    have f : Fate d rules text (d.dispatch rules text).1 (some (id, e)) := fate_iff.2 ⟨rfl, hd⟩
    generalize (d.dispatch rules text).1 = v at f
    cases f with
    | delivered h' ha hr =>
      obtain ⟨rfl, rfl⟩ := h.unique h'
      exact ⟨rfl, hr, _, rfl, ha⟩
    | handlerFailed h' ha hr =>
      obtain ⟨rfl, rfl⟩ := h.unique h'
      exact ⟨rfl, hr, _, rfl, ha⟩
  · rintro ⟨rfl, hr, handler, rfl, ha⟩
    by_cases hd : handler.reply d.deliveries.length (.ofMessage message kind) = .done
    · exact (Fate.delivered h ha hr hd).dispatch.2
    · exact (Fate.handlerFailed h ha hr hd).dispatch.2

end

end Dispatcher

/-! ## Runs -/

structure Receipt where
  text : String
  listener : Listener
  verdict : Verdict
  deriving DecidableEq, Repr

namespace Dispatcher

inductive Turn where
  | text (text : String)
  | arrange (f : Registry → Registry)
  | configure (rules : DispatchRules)
  | listen (listener : Listener)
  | resetDuplicates

def Turn.text? : Turn → Option String
  | .text s => some s
  | _ => none

def take (rules : DispatchRules) (d : Dispatcher) :
    Turn → List Receipt × DispatchRules × Dispatcher
  | .text text =>
    ([⟨text, d.journal.listener, (d.dispatch rules text).1⟩], rules, (d.dispatch rules text).2)
  | .arrange f => ([], rules, { d with registry := f d.registry })
  | .configure rules => ([], rules, d)
  | .listen listener => ([], rules, d.modifyJournal ({ · with listener }))
  | .resetDuplicates => ([], rules, d.resetDuplicates)

def run (rules : DispatchRules) (d : Dispatcher) : List Turn → List Receipt × Dispatcher
  | [] => ([], d)
  | turn :: rest =>
    let (receipts, rules, d) := d.take rules turn
    let (later, d) := d.run rules rest
    (receipts ++ later, d)

theorem run_cons (rules : DispatchRules) (d : Dispatcher) (turn : Turn) (rest : List Turn) :
    d.run rules (turn :: rest) =
      ((d.take rules turn).1 ++ ((d.take rules turn).2.2.run (d.take rules turn).2.1 rest).1,
        ((d.take rules turn).2.2.run (d.take rules turn).2.1 rest).2) := rfl

theorem run_texts (turns : List Turn) (rules : DispatchRules) (d : Dispatcher) :
    (d.run rules turns).1.map Receipt.text = turns.filterMap Turn.text? := by
  induction turns generalizing rules d with
  | nil => rfl
  | cons turn rest ih =>
    rw [run_cons, List.map_append, ih]
    cases turn <;> rfl

end Dispatcher
end MarketFeed
