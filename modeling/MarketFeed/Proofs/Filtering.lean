import Mathlib
import MarketFeed.Proofs.Pipeline

/-!
# Filters and events

The filters read a message, a handler is given an event. Both take a member that is a string as it
stands, and a member that is missing as empty. A number or a truth value is different: the event
carries its text, and for the filters it is not there. Filters judge the events of a message by what
they carry just if it holds no such member where that would count.
-/

namespace MarketFeed

/-! ## Texts of scalars -/

theorem Binary64.Layout.render_ne_empty (layout : Layout) (d : Decimal) : layout.render d ≠ "" := by
  unfold Layout.render
  dsimp only
  split
  · split
    · simp [Nat.repr_ne_empty]
    · split <;> simp
  · simp

theorem Binary64.render?_ne_empty (x : Binary64) : x.render? ≠ some "" := by
  cases x with
  | finite s m =>
    have hm : (if m = 0 then "0.0" else jsonLayout.render (shortest m)) ≠ "" := by
      by_cases hz : m = 0
      · rw [if_pos hz]
        decide
      · rw [if_neg hz]
        exact Layout.render_ne_empty _ _
    unfold render?
    cases s <;> simp [hm]
  | _ => simp [render?]

theorem Json.Number.render_ne_empty (n : Number) : n.render ≠ "" := by
  cases n with
  | integer i =>
    unfold render integerText
    by_cases hi : i < 0 <;> simp [hi, Nat.repr_ne_empty]
  | real x =>
    have hx := x.render?_ne_empty
    unfold render
    cases hr : x.render? with
    | none => simp [hr]
    | some s =>
      rw [hr] at hx
      simpa [hr] using hx

/-! ## The two readings of a member -/

/-- The member is a number or a truth value. -/
def Json.Bare (message : Json) (key : String) : Prop :=
  (∃ n, message.get? key = some (.number n)) ∨ ∃ b, message.get? key = some (.bool b)

section
variable {message : Json} {key : String}

theorem Field.text_of_string {s : String} (h : message.get? key = some (.string s)) :
    Field.text message key = s := by
  simp [Field.text, h, Json.scalarText?]

theorem Field.text_ne_empty (h : message.Bare key) : Field.text message key ≠ "" := by
  obtain ⟨n, h⟩ | ⟨b, h⟩ := h
  · simpa [Field.text, h, Json.scalarText?] using n.render_ne_empty
  · cases b <;> simp [Field.text, h, Json.scalarText?]

theorem Field.string_or_bare (h : Field.text message key ≠ "") :
    message.get? key = some (.string (Field.text message key)) ∨ message.Bare key := by
  unfold Field.text at h ⊢
  cases hm : message.get? key with
  | none => simp [hm] at h
  | some value =>
    cases value with
    | string s => exact .inl rfl
    | number n => exact .inr (.inl ⟨n, hm⟩)
    | bool b => exact .inr (.inr ⟨b, hm⟩)
    | _ => simp [hm, Json.scalarText?] at h

theorem Json.Bare.not_string (h : message.Bare key) (s : String) :
    message.get? key ≠ some (.string s) := by
  obtain ⟨n, h⟩ | ⟨b, h⟩ := h <;> simp [h]

theorem Dispatcher.routingSymbol_eq_iff :
    routingSymbol message = Field.text message "symbol" ↔ ¬ message.Bare "symbol" := by
  constructor
  · intro h hb
    have hn : textMember? message "symbol" = none := textMember?_eq_none.2 hb.not_string
    rw [routingSymbol, hn] at h
    exact Field.text_ne_empty hb h.symm
  · intro hb
    unfold routingSymbol
    cases hm : textMember? message "symbol" with
    | some s => exact (Field.text_of_string (textMember?_eq_some.1 hm)).symm
    | none =>
      by_cases he : Field.text message "symbol" = ""
      · exact he.symm
      · obtain h | h := Field.string_or_bare he
        · exact absurd h (textMember?_eq_none.1 hm _)
        · exact absurd h hb

end

/-! ## What an event carries -/

namespace Event

variable {message : Json} {kind : EventKind}

def exchanges : Event → List String
  | trade e => [e.exchange]
  | quote e => [e.bidExchange, e.askExchange]
  | timesale e => [e.exchange]
  | summary _ | order _ | position _ => []

theorem symbol_ofMessage : (ofMessage message kind).symbol = Field.text message "symbol" := by
  cases kind <;> rfl

theorem exchanges_ofMessage : (ofMessage message kind).exchanges =
    (Dispatcher.exchangeKeys kind).map (Field.text message) := by
  cases kind <;> rfl

theorem mem_exchanges_of_names {x : String} (h : Dispatcher.Names kind message x) :
    x ∈ (ofMessage message kind).exchanges := by
  obtain ⟨-, key, hk, hm⟩ := h
  rw [exchanges_ofMessage]
  exact List.mem_map.2 ⟨key, hk, Field.text_of_string hm⟩

theorem names_or_bare {x : String} (h : x ∈ (ofMessage message kind).exchanges) (hx : x ≠ "") :
    Dispatcher.Names kind message x ∨ ∃ key ∈ Dispatcher.exchangeKeys kind, message.Bare key := by
  rw [exchanges_ofMessage] at h
  obtain ⟨key, hk, rfl⟩ := List.mem_map.1 h
  obtain hm | hb := Field.string_or_bare hx
  · exact .inl ⟨hx, key, hk, hm⟩
  · exact .inr ⟨key, hk, hb⟩

end Event

/-! ## Judging -/

namespace Dispatcher

/-- The filters judge an event by what it carries: none gets through whose symbol is not listed or
whose exchanges are all not listed, and none is held back for a symbol that is listed. -/
structure Judges (d : Dispatcher) (rules : DispatchRules) (text : String) (e : Event) : Prop where
  symbol : ∀ id, (d.dispatch rules text).2.deliveries = d.deliveries ++ [(id, e)] →
    d.registry.symbolFilter ≠ [] → e.symbol ∈ d.registry.symbolFilter
  exchange : ∀ id, (d.dispatch rules text).2.deliveries = d.deliveries ++ [(id, e)] →
    d.registry.effectiveExchanges rules.validExchanges ≠ [] → (∃ x ∈ e.exchanges, x ≠ "") →
      ∃ x ∈ e.exchanges, x ≠ "" ∧ x ∈ d.registry.effectiveExchanges rules.validExchanges
  kept : e.symbol ∈ d.registry.symbolFilter → (d.dispatch rules text).1 ≠ .filteredSymbol

section
variable {text : String} {kind : EventKind} {message : Json}

theorem judges_of_not_bare (h : Json.IsMessage text kind message) (hs : ¬ message.Bare "symbol")
    (hx : (∃ key ∈ exchangeKeys kind, message.Bare key) → ∃ x, Names kind message x)
    (d : Dispatcher) (rules : DispatchRules) : d.Judges rules text (.ofMessage message kind) := by
  have same : (Event.ofMessage message kind).symbol = routingSymbol message :=
    Event.symbol_ofMessage.trans (routingSymbol_eq_iff.2 hs).symm
  refine ⟨fun id hd hf => ?_, fun id hd hf hn => ?_, fun hm hv => ?_⟩
  · obtain ⟨-, -, handler, -, ha⟩ := (handed_iff h).1 hd
    by_cases hm : routingSymbol message ∈ d.registry.symbolFilter
    · exact same ▸ hm
    · exact absurd ⟨hf, hm⟩ ha.symbol
  · obtain ⟨-, -, handler, -, ha⟩ := (handed_iff h).1 hd
    have named : ∃ x, Names kind message x := by
      obtain ⟨x, hm, hne⟩ := hn
      obtain hn | hb := Event.names_or_bare hm hne
      · exact ⟨x, hn⟩
      · exact hx hb
    by_cases hm : ∃ x, Names kind message x ∧ x ∈ d.registry.effectiveExchanges rules.validExchanges
    · obtain ⟨x, hn, hl⟩ := hm
      exact ⟨x, Event.mem_exchanges_of_names hn, hn.1, hl⟩
    · exact absurd ⟨hf, named, fun x hn hl => hm ⟨x, hn, hl⟩⟩ ha.exchange
  · obtain ⟨-, hb⟩ := (filteredSymbol_iff h).1 hv
    exact hb (same ▸ hm)

def filtering (symbols exchanges : List String) : Dispatcher where
  registry :=
    { symbolFilter := symbols
      exchangeFilter := exchanges
      handlers := fun _ => some ⟨"handler", fun _ _ => .done⟩ }

theorem not_judges_of_bare_symbol (h : Json.IsMessage text kind message)
    (hb : message.Bare "symbol") :
    ¬ (filtering [Field.text message "symbol"] []).Judges {} text (.ofMessage message kind) := by
  have hn : routingSymbol message = "" := by
    rw [routingSymbol, textMember?_eq_none.2 hb.not_string]
    rfl
  -- The filter lists the symbol of the event, and so not the empty one.
  have hs : (filtering [Field.text message "symbol"] []).registry.BarsSymbol message := by
    refine ⟨List.cons_ne_nil _ _, fun hm => Field.text_ne_empty hb ?_⟩
    rw [hn] at hm
    exact (List.mem_singleton.1 hm).symm
  intro j
  refine j.kept ?_ ((filteredSymbol_iff h).2 hs)
  rw [Event.symbol_ofMessage]
  exact List.mem_singleton_self _

theorem not_judges_of_bare_exchange (h : Json.IsMessage text kind message)
    (hb : ∃ key ∈ exchangeKeys kind, message.Bare key) (hn : ¬ ∃ x, Names kind message x) :
    ¬ (filtering [] [""]).Judges {} text (.ofMessage message kind) := by
  obtain ⟨key, hk, hb⟩ := hb
  -- Only the empty exchange is listed, but the message counts as one that names none.
  have ha : (filtering [] [""]).registry.Admits [] kind message ⟨"handler", fun _ _ => .done⟩ :=
    ⟨fun hs => hs.1 rfl, fun he => hn he.2.1, rfl⟩
  have hr : ¬ (filtering [] [""]).Repeats {} kind message := fun hr => nomatch hr.1
  have handed := (handed_iff h).2 ⟨rfl, hr, _, rfl, ha⟩
  have carried : Field.text message key ∈ (Event.ofMessage message kind).exchanges := by
    rw [Event.exchanges_ofMessage]
    exact List.mem_map_of_mem hk
  intro j
  obtain ⟨x, -, hx, hl⟩ := j.exchange _ handed (List.cons_ne_nil _ _)
    ⟨_, carried, Field.text_ne_empty hb⟩
  exact hx (List.mem_singleton.1 hl)

/-- All filters judge the event of a message by what it carries just if its symbol is not bare, and
none of its exchanges is unless it names another one. -/
theorem judges_iff (h : Json.IsMessage text kind message) :
    (∀ (d : Dispatcher) (rules : DispatchRules), d.Judges rules text (.ofMessage message kind)) ↔
      ¬ message.Bare "symbol" ∧
        ((∃ key ∈ exchangeKeys kind, message.Bare key) → ∃ x, Names kind message x) := by
  constructor
  · intro hj
    refine ⟨fun hb => ?_, fun hb => ?_⟩
    · exact not_judges_of_bare_symbol h hb (hj _ _)
    · by_cases hn : ∃ x, Names kind message x
      · exact hn
      · exact absurd (hj _ _) (not_judges_of_bare_exchange h hb hn)
  · rintro ⟨hs, hx⟩
    exact judges_of_not_bare h hs hx

end

def mixedQuote : Json := .object
  [("askexch", .string "Q"), ("bidexch", .number (.integer 5)), ("type", .string "quote")]

def mixedQuoteText : String := "\x7b\"type\":\"quote\",\"bidexch\":5,\"askexch\":\"Q\"\x7d"

theorem mixedQuote_judged : Json.IsMessage mixedQuoteText .quote mixedQuote ∧
    ∀ (d : Dispatcher) (rules : DispatchRules),
      d.Judges rules mixedQuoteText (.ofMessage mixedQuote .quote) := by
  have h : Json.IsMessage mixedQuoteText .quote mixedQuote := ⟨by cbv, by cbv⟩
  have named : Names .quote mixedQuote "Q" := ⟨by decide, "askexch", by decide, by cbv⟩
  have absent : mixedQuote.get? "symbol" = none := by cbv
  refine ⟨h, (judges_iff h).2 ⟨?_, fun _ => ⟨"Q", named⟩⟩⟩
  rintro (⟨n, hn⟩ | ⟨b, hb⟩)
  · rw [absent] at hn
    cases hn
  · rw [absent] at hb
    cases hb

def numberedTrade (key : String) (n : Nat) : Json := .object
  [(key, .number (.integer n)), ("type", .string "trade")]

def numberedSymbolText : String := "\x7b\"type\":\"trade\",\"symbol\":42\x7d"

def numberedExchangeText : String := "\x7b\"type\":\"trade\",\"exch\":5\x7d"

/-- A trade whose symbol is a number is held back by the filter for it and gets through another
one, and a trade whose exchange is a number gets through a filter for another exchange. -/
theorem numberedTrade_misjudged :
    Json.IsMessage numberedSymbolText .trade (numberedTrade "symbol" 42) ∧
    (Event.ofMessage (numberedTrade "symbol" 42) .trade).symbol = "42" ∧
    ((filtering ["42"] []).dispatch {} numberedSymbolText).1 = .filteredSymbol ∧
    ((filtering [""] []).dispatch {} numberedSymbolText).2.deliveries =
      [("handler", .ofMessage (numberedTrade "symbol" 42) .trade)] ∧
    Json.IsMessage numberedExchangeText .trade (numberedTrade "exch" 5) ∧
    (Event.ofMessage (numberedTrade "exch" 5) .trade).exchanges = ["5"] ∧
    ((filtering [] ["Q"]).dispatch {} numberedExchangeText).2.deliveries =
      [("handler", .ofMessage (numberedTrade "exch" 5) .trade)] :=
  ⟨⟨by cbv, by cbv⟩, by cbv, by cbv, by cbv, ⟨by cbv, by cbv⟩, by cbv, by cbv⟩

end Dispatcher
end MarketFeed
