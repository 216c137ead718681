import Mathlib.Data.List.Forall2
import MarketFeed.Proofs.Repetition

/-!
# Isolation of handlers

What handlers reply and what the listener for errors does matters to nothing but the counts and to
whether a message counts as delivered or as failed. Two runs that differ in nothing else hand out the
same events to handlers of the same names, and agree in every other verdict, in the memory and in the
filters.
-/

namespace MarketFeed

/-! ## Alike registries -/

structure Registry.Alike (r r' : Registry) : Prop where
  symbols : r.symbols = r'.symbols
  active : r.active = r'.active
  symbolFilter : r.symbolFilter = r'.symbolFilter
  exchangeFilter : r.exchangeFilter = r'.exchangeFilter
  handlers : ∀ kind, (r.handlers kind).map Handler.id = (r'.handlers kind).map Handler.id

namespace Registry.Alike

variable {r r' : Registry}

theorem refl (r : Registry) : r.Alike r := ⟨rfl, rfl, rfl, rfl, fun _ => rfl⟩

theorem setHandler (h : r.Alike r') (kind : EventKind) {x x' : Option Handler}
    (hx : x.map Handler.id = x'.map Handler.id) :
    (r.setHandler kind x).Alike (r'.setHandler kind x') := by
  refine ⟨h.symbols, h.active, h.symbolFilter, h.exchangeFilter, fun k => ?_⟩
  unfold Registry.setHandler
  by_cases hk : k = kind
  · simp [hk, hx]
  · simpa [hk] using h.handlers k

theorem barsSymbol_iff (h : r.Alike r') (message : Json) :
    r.BarsSymbol message ↔ r'.BarsSymbol message := by
  unfold BarsSymbol
  rw [h.symbolFilter]

theorem barsExchange_iff (h : r.Alike r') (configured : List String) (kind : EventKind)
    (message : Json) :
    r.BarsExchange configured kind message ↔ r'.BarsExchange configured kind message := by
  unfold BarsExchange effectiveExchanges
  rw [h.exchangeFilter]

theorem handlers_eq_none (h : r.Alike r') {kind : EventKind} (hn : r.handlers kind = none) :
    r'.handlers kind = none := by
  have named := h.handlers kind
  rw [hn] at named
  exact Option.map_eq_none_iff.1 named.symm

theorem admits (h : r.Alike r') {configured : List String} {kind : EventKind} {message : Json}
    {handler : Handler} (ha : r.Admits configured kind message handler) :
    ∃ handler', handler'.id = handler.id ∧ r'.Admits configured kind message handler' := by
  have named := h.handlers kind
  rw [ha.registered, Option.map_some] at named
  obtain ⟨handler', hh, hn⟩ := Option.map_eq_some_iff.1 named.symm
  refine ⟨handler', hn, fun hs => ?_, fun he => ?_, hh⟩
  · exact ha.symbol ((h.barsSymbol_iff message).2 hs)
  · exact ha.exchange ((h.barsExchange_iff configured kind message).2 he)

end Registry.Alike

/-! ## Alike dispatchers -/

inductive Verdict.Alike : Verdict → Verdict → Prop
  | same (v : Verdict) : Alike v v
  | fails (kind : EventKind) : Alike (.delivered kind) (.handlerFailed kind)
  | succeeds (kind : EventKind) : Alike (.handlerFailed kind) (.delivered kind)

structure Receipt.Alike (r r' : Receipt) : Prop where
  text : r.text = r'.text
  verdict : r.verdict.Alike r'.verdict

namespace Dispatcher

/-- Dispatchers that differ at most in their journals and in what their handlers reply. -/
structure Alike (d d' : Dispatcher) : Prop where
  registry : d.registry.Alike d'.registry
  memory : d.memory = d'.memory
  deliveries : d.deliveries = d'.deliveries

section
variable {d d' : Dispatcher} {rules : DispatchRules} {text : String}

theorem Alike.repeats_iff (h : d.Alike d') (kind : EventKind) (message : Json) :
    d.Repeats rules kind message ↔ d'.Repeats rules kind message := by
  unfold Repeats
  rw [h.memory]

theorem Alike.fate_invoked (h : d.Alike d') {kind : EventKind} {message : Json} {handler : Handler}
    (hm : Json.IsMessage text kind message)
    (ha : d.registry.Admits rules.validExchanges kind message handler)
    (hr : ¬ d.Repeats rules kind message) :
    Fate d' rules text (.delivered kind) (some (handler.id, .ofMessage message kind)) ∨
      Fate d' rules text (.handlerFailed kind) (some (handler.id, .ofMessage message kind)) := by
  obtain ⟨handler', hn, ha'⟩ := h.registry.admits ha
  have hr' : ¬ d'.Repeats rules kind message := fun hr' => hr ((h.repeats_iff kind message).2 hr')
  rw [← hn]
  by_cases hd : handler'.reply d'.deliveries.length (.ofMessage message kind) = .done
  · exact .inl (.delivered hm ha' hr' hd)
  · exact .inr (.handlerFailed hm ha' hr' hd)

theorem Fate.alike {v : Verdict} {handed : Option (String × Event)}
    (f : Fate d rules text v handed) (h : d.Alike d') :
    ∃ v', Fate d' rules text v' handed ∧ v.Alike v' := by
  cases f with
  | malformed hp => exact ⟨_, .malformed hp, .same _⟩
  | untyped hp ht => exact ⟨_, .untyped hp ht, .same _⟩
  | unknownType hp ht hn => exact ⟨_, .unknownType hp ht hn, .same _⟩
  | @filteredSymbol kind message hm hs =>
    have hs' := (h.registry.barsSymbol_iff message).1 hs
    exact ⟨_, .filteredSymbol hm hs', .same _⟩
  | @filteredExchange kind message hm hs he =>
    have hs' := fun hs' => hs ((h.registry.barsSymbol_iff message).2 hs')
    have he' := (h.registry.barsExchange_iff _ kind message).1 he
    exact ⟨_, .filteredExchange hm hs' he', .same _⟩
  | @noHandler kind message hm hs he hh =>
    have hs' := fun hs' => hs ((h.registry.barsSymbol_iff message).2 hs')
    have he' := fun he' => he ((h.registry.barsExchange_iff _ kind message).2 he')
    exact ⟨_, .noHandler hm hs' he' (h.registry.handlers_eq_none hh), .same _⟩
  | @duplicate kind message handler hm ha hr =>
    obtain ⟨handler', -, ha'⟩ := h.registry.admits ha
    exact ⟨_, .duplicate hm ha' ((h.repeats_iff kind message).1 hr), .same _⟩
  | delivered hm ha hr hd =>
    obtain f' | f' := h.fate_invoked hm ha hr
    · exact ⟨_, f', .same _⟩
    · exact ⟨_, f', .fails _⟩
  | handlerFailed hm ha hr hd =>
    obtain f' | f' := h.fate_invoked hm ha hr
    · exact ⟨_, f', .succeeds _⟩
    · exact ⟨_, f', .same _⟩

theorem Alike.dispatch (h : d.Alike d') (rules : DispatchRules) (text : String) :
    (d.dispatch rules text).1.Alike (d'.dispatch rules text).1 ∧
      (d.dispatch rules text).2.Alike (d'.dispatch rules text).2 := by
  obtain ⟨v, handed, f⟩ := exists_fate d rules text
  obtain ⟨v', f', hv⟩ := f.alike h
  have handout : d.handout? rules text = d'.handout? rules text := by rw [f.handout?, f'.handout?]
  refine ⟨?_, ?_, ?_, ?_⟩
  · rw [f.dispatch.1, f'.dispatch.1]
    exact hv
  · rw [dispatch_registry, dispatch_registry]
    exact h.registry
  · rw [dispatch_memory, dispatch_memory, handout, h.memory]
  · rw [dispatch_deliveries, dispatch_deliveries, handout, h.deliveries]

end

/-! ## Runs -/

/-- What handlers reply, by their names, and what listens where errors are listened to. A reply may
depend on how many events were handed out before, so it need not be the same for equal events. -/
structure Conduct where
  reply : String → Nat → Event → Reply
  listener : Listener

inductive Step where
  | text (text : String)
  | register (kind : EventKind) (name : String)
  | unregister (kind : EventKind)
  | filterSymbols (symbols : List String)
  | filterExchanges (exchanges : List String)
  | clearFilters
  | configure (rules : DispatchRules)
  | listen (listens : Bool)
  | resetDuplicates

def Step.turn (c : Conduct) : Step → Turn
  | text s => .text s
  | register kind name => .arrange (·.setHandler kind (some ⟨name, c.reply name⟩))
  | unregister kind => .arrange (·.setHandler kind none)
  | filterSymbols symbols => .arrange ({ · with symbolFilter := symbols })
  | filterExchanges exchanges => .arrange ({ · with exchangeFilter := exchanges })
  | clearFilters => .arrange Registry.clearFilters
  | configure rules => .configure rules
  | listen listens => .listen (if listens then c.listener else .absent)
  | resetDuplicates => .resetDuplicates

theorem Alike.take {d d' : Dispatcher} (h : d.Alike d') (c c' : Conduct) (rules : DispatchRules)
    (step : Step) :
    List.Forall₂ Receipt.Alike (d.take rules (step.turn c)).1 (d'.take rules (step.turn c')).1 ∧
      (d.take rules (step.turn c)).2.1 = (d'.take rules (step.turn c')).2.1 ∧
      (d.take rules (step.turn c)).2.2.Alike (d'.take rules (step.turn c')).2.2 := by
  have arranged : ∀ {r r' : Registry}, r.Alike r' →
      Alike { d with registry := r } { d' with registry := r' } :=
    fun hr => ⟨hr, h.memory, h.deliveries⟩
  cases step with
  | text text =>
    obtain ⟨hv, hd⟩ := h.dispatch rules text
    exact ⟨.cons ⟨rfl, hv⟩ .nil, rfl, hd⟩
  | register kind name => exact ⟨.nil, rfl, arranged (h.registry.setHandler kind rfl)⟩
  | unregister kind => exact ⟨.nil, rfl, arranged (h.registry.setHandler kind rfl)⟩
  | filterSymbols symbols =>
    obtain ⟨hs, ha, -, he, hh⟩ := h.registry
    exact ⟨.nil, rfl, arranged ⟨hs, ha, rfl, he, hh⟩⟩
  | filterExchanges exchanges =>
    obtain ⟨hs, ha, hf, -, hh⟩ := h.registry
    exact ⟨.nil, rfl, arranged ⟨hs, ha, hf, rfl, hh⟩⟩
  | clearFilters =>
    obtain ⟨hs, ha, -, -, hh⟩ := h.registry
    exact ⟨.nil, rfl, arranged ⟨hs, ha, rfl, rfl, hh⟩⟩
  | configure rules => exact ⟨.nil, rfl, h⟩
  | listen listens => exact ⟨.nil, rfl, h.registry, h.memory, h.deliveries⟩
  | resetDuplicates => exact ⟨.nil, rfl, h.registry, rfl, h.deliveries⟩

theorem Alike.run {d d' : Dispatcher} (h : d.Alike d') (c c' : Conduct) (rules : DispatchRules)
    (steps : List Step) :
    List.Forall₂ Receipt.Alike (d.run rules (steps.map (Step.turn c))).1
        (d'.run rules (steps.map (Step.turn c'))).1 ∧
      (d.run rules (steps.map (Step.turn c))).2.Alike
        (d'.run rules (steps.map (Step.turn c'))).2 := by
  induction steps generalizing d d' rules with
  | nil => exact ⟨.nil, h⟩
  | cons step rest ih =>
    obtain ⟨hr, he, hd⟩ := h.take c c' rules step
    obtain ⟨hr', hd'⟩ := ih hd (d.take rules (step.turn c)).2.1
    rw [List.map_cons, List.map_cons, run_cons, run_cons, ← he]
    exact ⟨List.rel_append hr hr', hd'⟩

/-- Over every run from a fresh dispatcher, whatever handlers reply and whatever listens: the same
events go to handlers of the same names in the same order, and the verdicts agree but for whether the
handler failed. -/
theorem run_isolated (c c' : Conduct) (rules : DispatchRules) (steps : List Step) :
    let (receipts, d) := ({} : Dispatcher).run rules (steps.map (Step.turn c))
    let (receipts', d') := ({} : Dispatcher).run rules (steps.map (Step.turn c'))
    d.deliveries = d'.deliveries ∧ List.Forall₂ Receipt.Alike receipts receipts' ∧
      d.Alike d' := by
  have fresh : Alike {} {} := ⟨.refl _, rfl, rfl⟩
  obtain ⟨hr, hd⟩ := fresh.run c c' rules steps
  exact ⟨hd.deliveries, hr, hd⟩

end Dispatcher
end MarketFeed
