import MarketFeed.Frame
import MarketFeed.Handler
import MarketFeed.Text.Described
import MarketFeed.TextSet

/-!
# The subscription registry

What a connection should receive and who is told about it: the subscribed symbols, the active
kinds, two filters, and at most one handler for each kind.
-/

namespace MarketFeed

structure Registry where
  symbols : TextSet := .empty
  active : EventKind → Bool := fun _ => false
  /-- The symbols that pass; with none listed all do. -/
  symbolFilter : List String := []
  /-- The exchanges that pass; with none listed the configured ones count. -/
  exchangeFilter : List String := []
  handlers : EventKind → Option Handler := fun _ => none

inductive Route where
  | deliver (handler : Handler)
  | filteredSymbol
  | filteredExchange
  | noHandler

namespace TextSet

/-- Adds the texts that are not empty. Lists those that were not in the set, in order. -/
def addAll : List String → TextSet → List String × TextSet
  | [], s => ([], s)
  | x :: xs, s =>
    if x ≠ "" ∧ x ∉ s then
      let (added, s) := addAll xs (s.insert x)
      (x :: added, s)
    else addAll xs s

/-- Removes texts. Lists those that were in the set, in order. -/
def removeAll : List String → TextSet → List String × TextSet
  | [], s => ([], s)
  | x :: xs, s =>
    if x ∈ s then
      let (removed, s) := removeAll xs (s.erase x)
      (x :: removed, s)
    else removeAll xs s

theorem mem_addAll {xs : List String} : ∀ {s : TextSet} {z : String},
    z ∈ (addAll xs s).2 ↔ z ∈ s ∨ z ∈ xs ∧ z ≠ "" := by
  induction xs with
  | nil => simp [addAll]
  | cons x xs ih =>
    intro s z
    unfold addAll
    by_cases h : x ≠ "" ∧ x ∉ s
    · rw [if_pos h]
      show z ∈ (addAll xs (s.insert x)).2 ↔ _
      rw [ih, mem_insert, List.mem_cons]
      constructor
      · rintro ((rfl | hz) | hz)
        · exact .inr ⟨.inl rfl, h.1⟩
        · exact .inl hz
        · exact .inr ⟨.inr hz.1, hz.2⟩
      · rintro (hz | ⟨rfl | hz, hn⟩)
        · exact .inl (.inr hz)
        · exact .inl (.inl rfl)
        · exact .inr ⟨hz, hn⟩
    · rw [if_neg h, ih, List.mem_cons]
      constructor
      · rintro (hs | ⟨hz, hn⟩)
        · exact .inl hs
        · exact .inr ⟨.inr hz, hn⟩
      · rintro (hs | ⟨rfl | hz, hn⟩)
        · exact .inl hs
        · exact .inl (Decidable.not_not.1 fun hs => h ⟨hn, hs⟩)
        · exact .inr ⟨hz, hn⟩

theorem mem_added {xs : List String} : ∀ {s : TextSet} {z : String},
    z ∈ (addAll xs s).1 ↔ z ∈ (addAll xs s).2 ∧ z ∉ s := by
  induction xs with
  | nil => simp [addAll]
  | cons x xs ih =>
    intro s z
    unfold addAll
    by_cases h : x ≠ "" ∧ x ∉ s
    · rw [if_pos h]
      show z ∈ x :: (addAll xs (s.insert x)).1 ↔ z ∈ (addAll xs (s.insert x)).2 ∧ _
      rw [List.mem_cons, ih, mem_insert, not_or]
      have hx : x ∈ (addAll xs (s.insert x)).2 := mem_addAll.2 (.inl (mem_insert.2 (.inl rfl)))
      by_cases e : z = x
      · simp [e, hx, h.2]
      · simp [e]
    · rw [if_neg h]
      exact ih

theorem mem_removeAll {xs : List String} : ∀ {s : TextSet} {z : String},
    z ∈ (removeAll xs s).2 ↔ z ∈ s ∧ z ∉ xs := by
  induction xs with
  | nil => simp [removeAll]
  | cons x xs ih =>
    intro s z
    unfold removeAll
    by_cases h : x ∈ s
    · rw [if_pos h]
      show z ∈ (removeAll xs (s.erase x)).2 ↔ _
      rw [ih, mem_erase, List.mem_cons, not_or, and_assoc]
    · rw [if_neg h, ih, List.mem_cons, not_or]
      exact and_congr_right fun hz => ⟨fun hn => ⟨fun e => h (e ▸ hz), hn⟩, And.right⟩

theorem mem_removed {xs : List String} : ∀ {s : TextSet} {z : String},
    z ∈ (removeAll xs s).1 ↔ z ∈ s ∧ z ∉ (removeAll xs s).2 := by
  induction xs with
  | nil => simp [removeAll]
  | cons x xs ih =>
    intro s z
    unfold removeAll
    by_cases h : x ∈ s
    · rw [if_pos h]
      show z ∈ x :: (removeAll xs (s.erase x)).1 ↔ z ∈ s ∧ z ∉ (removeAll xs (s.erase x)).2
      rw [List.mem_cons, ih, mem_removeAll, mem_erase]
      by_cases e : z = x
      · simp [e, h]
      · simp [e]
    · rw [if_neg h]
      exact ih

end TextSet

namespace Registry

instance : Inhabited Registry := ⟨{}⟩

/-! ## Subscriptions -/

def addSymbols (r : Registry) (xs : List String) : List String × Registry :=
  let (added, symbols) := TextSet.addAll xs r.symbols
  (added, { r with symbols })

def removeSymbols (r : Registry) (xs : List String) : List String × Registry :=
  let (removed, symbols) := TextSet.removeAll xs r.symbols
  (removed, { r with symbols })

def activate (r : Registry) (kind : EventKind) : Registry :=
  { r with active := fun k => if k = kind then true else r.active k }

def activeKinds (r : Registry) : List EventKind := EventKind.all.filter r.active

def activeMarketKinds (r : Registry) : List EventKind :=
  r.activeKinds.filter fun k => !k.isAccount

theorem mem_activeMarketKinds {r : Registry} {kind : EventKind} :
    kind ∈ r.activeMarketKinds ↔ r.active kind = true ∧ kind.isAccount = false := by
  unfold activeMarketKinds activeKinds
  simp [List.mem_filter, kind.mem_all, and_comm]

/-- The frames that restore every active subscription on a new connection. Without symbols there
is nothing to restore for market kinds. -/
def replayFrames (r : Registry) : List Frame :=
  (r.activeKinds.filter fun k => k.isAccount || !r.symbols.isEmpty).map fun k =>
    .subscribe k r.symbols.toList

/-! ## Handlers -/

def hasHandler (r : Registry) (kind : EventKind) : Bool := (r.handlers kind).isSome

def setHandler (r : Registry) (kind : EventKind) (handler : Option Handler) : Registry :=
  { r with handlers := fun k => if k = kind then handler else r.handlers k }

def handlerCount (r : Registry) : Nat := EventKind.all.countP r.hasHandler

/-! ## Filters and routing -/

def clearFilters (r : Registry) : Registry := { r with symbolFilter := [], exchangeFilter := [] }

def filtering (r : Registry) : Bool := !r.symbolFilter.isEmpty || !r.exchangeFilter.isEmpty

/-- The exchanges that pass: the explicit filter, or else the configured exchanges. -/
def effectiveExchanges (r : Registry) (configured : List String) : List String :=
  if r.exchangeFilter.isEmpty then configured else r.exchangeFilter

def symbolPasses (r : Registry) (symbol : String) : Bool :=
  r.symbolFilter.isEmpty || r.symbolFilter.contains symbol

/-- A message passes that carries no exchange, or one that is listed. -/
def exchangesPass (r : Registry) (configured carried : List String) : Bool :=
  let listed := r.effectiveExchanges configured
  let named := carried.filter (· ≠ "")
  listed.isEmpty || named.isEmpty || named.any listed.contains

def route (r : Registry) (configured : List String) (kind : EventKind) (symbol : String)
    (carried : List String) : Route :=
  if !r.symbolPasses symbol then .filteredSymbol
  else if !r.exchangesPass configured carried then .filteredExchange
  else match r.handlers kind with
    | some h => .deliver h
    | none => .noHandler

/-! ## Description -/

def describe (r : Registry) : String :=
  describeRecord "SubscriptionRegistry"
    [("stats", describeRecord "SubscriptionStats"
      [("symbols", Nat.repr r.symbols.size), ("kinds", Nat.repr r.activeKinds.length),
        ("handlers", Nat.repr r.handlerCount), ("filtering", describeBool r.filtering)])]

end Registry

end MarketFeed
