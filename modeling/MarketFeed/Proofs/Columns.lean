import Mathlib
import MarketFeed.Event.Printer
import MarketFeed.Proofs.Quoting

/-!
# Fields and their keys

The fields of an event are its members when it is printed. Each is read from a key of its own in the
message, by one of four readings, and what stands under any other key does not matter for it.
-/

namespace MarketFeed

open MarketFeed.Field

namespace Json

theorem get?_cons (m : String × Json) (members : List (String × Json)) (key : String) :
    (object (m :: members)).get? key = if m.1 = key then some m.2 else (object members).get? key := by
  unfold get?
  by_cases same : m.1 = key <;> simp [same]

theorem ofBinary64_inj {x y : Binary64} : ofBinary64 x = ofBinary64 y ↔ x = y := by
  obtain _ | (_ | _) | _ := x <;> obtain _ | (_ | _) | _ := y <;> simp [ofBinary64]

theorem ofInt_inj {i j : Int} : ofInt i = ofInt j ↔ i = j := by
  simp [ofInt]

end Json

namespace Event

inductive Reading where
  | text
  | float
  | int
  | bool
  deriving DecidableEq, Repr

def Reading.value : Reading → Option Json → Json
  | text, v => .string ((v.bind Json.scalarText?).getD "")
  | float, v => .ofBinary64 (coerceFloat v .zero)
  | int, v => .ofInt (coerceInt v 0)
  | bool, v => .bool (coerceBool v false)

structure Column where
  name : String
  key : String
  reading : Reading
  deriving DecidableEq, Repr

def columns : EventKind → List Column
  | .trade => [⟨"symbol", "symbol", .text⟩, ⟨"exchange", "exch", .text⟩, ⟨"price", "price", .float⟩,
      ⟨"size", "size", .int⟩, ⟨"cumulative_volume", "cvol", .int⟩, ⟨"date", "date", .int⟩,
      ⟨"last", "last", .float⟩]
  | .quote => [⟨"symbol", "symbol", .text⟩, ⟨"bid", "bid", .float⟩, ⟨"bid_size", "bidsz", .int⟩,
      ⟨"bid_exchange", "bidexch", .text⟩, ⟨"bid_date", "biddate", .int⟩, ⟨"ask", "ask", .float⟩,
      ⟨"ask_size", "asksz", .int⟩, ⟨"ask_exchange", "askexch", .text⟩,
      ⟨"ask_date", "askdate", .int⟩]
  | .summary => [⟨"symbol", "symbol", .text⟩, ⟨"open", "open", .float⟩, ⟨"high", "high", .float⟩,
      ⟨"low", "low", .float⟩, ⟨"prev_close", "prevClose", .float⟩]
  | .timesale => [⟨"symbol", "symbol", .text⟩, ⟨"exchange", "exch", .text⟩, ⟨"bid", "bid", .float⟩,
      ⟨"ask", "ask", .float⟩, ⟨"last", "last", .float⟩, ⟨"size", "size", .int⟩,
      ⟨"date", "date", .int⟩, ⟨"seq", "seq", .int⟩, ⟨"flag", "flag", .text⟩,
      ⟨"cancel", "cancel", .bool⟩, ⟨"correction", "correction", .bool⟩,
      ⟨"session", "session", .text⟩]
  | .order => [⟨"id", "id", .int⟩, ⟨"account", "account", .text⟩, ⟨"symbol", "symbol", .text⟩,
      ⟨"status", "status", .text⟩, ⟨"side", "side", .text⟩, ⟨"price", "price", .float⟩,
      ⟨"stop_price", "stop_price", .float⟩, ⟨"avg_fill_price", "avg_fill_price", .float⟩,
      ⟨"executed_quantity", "executed_quantity", .float⟩,
      ⟨"last_fill_quantity", "last_fill_quantity", .float⟩,
      ⟨"remaining_quantity", "remaining_quantity", .float⟩,
      ⟨"transaction_date", "transaction_date", .text⟩, ⟨"create_date", "create_date", .text⟩]
  | .position => [⟨"account", "account", .text⟩, ⟨"symbol", "symbol", .text⟩,
      ⟨"quantity", "quantity", .float⟩, ⟨"cost_basis", "cost_basis", .float⟩,
      ⟨"date_acquired", "date_acquired", .text⟩]

def field? (e : Event) (name : String) : Option Json := (Json.object e.members).get? name

/-! ## All fields -/

theorem names_nodup (kind : EventKind) : ((columns kind).map Column.name).Nodup := by
  cases kind <;> decide

theorem keys_nodup (kind : EventKind) : ((columns kind).map Column.key).Nodup := by
  cases kind <;> decide

theorem names_members (e : Event) : e.members.map Prod.fst = (columns e.kind).map Column.name := by
  cases e <;> rfl

theorem members_ofMessage (m : Json) (kind : EventKind) :
    (ofMessage m kind).members =
      (columns kind).map fun c => (c.name, c.reading.value (m.get? c.key)) := by
  cases kind <;> rfl

theorem members_injective {e e' : Event} (kinds : e.kind = e'.kind) (h : e.members = e'.members) :
    e = e' := by
  cases e <;> cases e' <;> cases kinds
  all_goals
    rename_i e e'
    obtain ⟨⟩ := e
    obtain ⟨⟩ := e'
    simpa [members, Json.ofBinary64_inj, Json.ofInt_inj] using h

theorem get?_of_mem {ms : List (String × Json)} (nodup : (ms.map Prod.fst).Nodup) {m : String × Json}
    (h : m ∈ ms) : (Json.object ms).get? m.1 = some m.2 := by
  induction ms with
  | nil => cases h
  | cons m' ms ih =>
    rw [List.map_cons, List.nodup_cons] at nodup
    rw [Json.get?_cons]
    rcases List.mem_cons.1 h with rfl | later
    · rw [if_pos rfl]
    · have other : m'.1 ≠ m.1 := fun same => nodup.1 (same ▸ List.mem_map_of_mem later)
      rw [if_neg other, ih nodup.2 later]

theorem members_ext {ms ms' : List (String × Json)} (names : ms.map Prod.fst = ms'.map Prod.fst)
    (nodup : (ms.map Prod.fst).Nodup)
    (h : ∀ name ∈ ms.map Prod.fst, (Json.object ms).get? name = (Json.object ms').get? name) :
    ms = ms' := by
  induction ms generalizing ms' with
  | nil => exact (List.map_eq_nil_iff.1 names.symm).symm
  | cons m ms ih =>
    obtain _ | ⟨m', ms'⟩ := ms'
    · cases names
    obtain ⟨name, v⟩ := m
    obtain ⟨name', v'⟩ := m'
    simp only [List.map_cons, List.cons.injEq] at names
    obtain ⟨rfl, names⟩ := names
    rw [List.map_cons, List.nodup_cons] at nodup
    have first := h name (List.mem_cons_self ..)
    rw [Json.get?_cons, Json.get?_cons, if_pos rfl, if_pos rfl] at first
    have others : ms = ms' := by
      apply ih names nodup.2
      intro other later
      have ne : name ≠ other := fun same => nodup.1 (same ▸ later)
      have := h other (List.mem_cons_of_mem _ later)
      rwa [Json.get?_cons, Json.get?_cons, if_neg ne, if_neg ne] at this
    cases first
    rw [others]

/-! ## One key for each field -/

theorem field?_ofMessage {kind : EventKind} {c : Column} (h : c ∈ columns kind) (m : Json) :
    (ofMessage m kind).field? c.name = some (c.reading.value (m.get? c.key)) := by
  unfold field?
  have names := names_members (ofMessage m kind)
  rw [kind_ofMessage] at names
  have nodup : ((ofMessage m kind).members.map Prod.fst).Nodup := names ▸ names_nodup kind
  apply get?_of_mem nodup (m := (c.name, _))
  rw [members_ofMessage]
  exact List.mem_map_of_mem h

theorem eq_of_fields {kind : EventKind} {e e' : Event} (he : e.kind = kind) (he' : e'.kind = kind)
    (h : ∀ c ∈ columns kind, e.field? c.name = e'.field? c.name) : e = e' := by
  subst he
  have names := names_members e
  apply members_injective he'.symm
  apply members_ext
  · rw [names, names_members, he']
  · exact names ▸ names_nodup e.kind
  · rw [names]
    exact List.forall_mem_map.2 h

theorem Reading.value_varies (r : Reading) : ∃ v w : Json, r.value (some v) ≠ r.value (some w) := by
  cases r with
  | text => exact ⟨.string "", .string "x", by simp [value, Json.scalarText?]⟩
  | float =>
    refine ⟨.number (.real .zero), .number (.real .one), ?_⟩
    show Json.ofBinary64 .zero ≠ Json.ofBinary64 .one
    rw [Ne, Json.ofBinary64_inj]
    decide
  | int =>
    refine ⟨.number (.integer 0), .number (.integer 1), ?_⟩
    show Json.ofInt 0 ≠ Json.ofInt 1
    rw [Ne, Json.ofInt_inj]
    decide
  | bool => exact ⟨.bool true, .bool false, by simp [value, coerceBool, Json.bool?]⟩

/-- The fields of an event and the keys of its message correspond one to one: what two messages hold
under the key of a field decides whether they agree on the field, whatever else is in them, and no
field ignores its key. -/
theorem fields_by_key (kind : EventKind) :
    ((columns kind).map Column.key).Nodup ∧ ((columns kind).map Column.name).Nodup ∧
      (∀ e : Event, e.kind = kind → e.members.map Prod.fst = (columns kind).map Column.name) ∧
      (∀ e e' : Event, e.kind = kind → e'.kind = kind →
        (∀ c ∈ columns kind, e.field? c.name = e'.field? c.name) → e = e') ∧
      ∀ c ∈ columns kind,
        (∀ m m' : Json, m.get? c.key = m'.get? c.key →
          (ofMessage m kind).field? c.name = (ofMessage m' kind).field? c.name) ∧
        (∀ key v members, key ≠ c.key →
          (ofMessage (.object (Json.insertMember key v members)) kind).field? c.name =
            (ofMessage (.object members) kind).field? c.name) ∧
        ∀ members, ∃ v,
          (ofMessage (.object (Json.insertMember c.key v members)) kind).field? c.name ≠
            (ofMessage (.object members) kind).field? c.name := by
  refine ⟨keys_nodup kind, names_nodup kind, ?_, fun e e' he he' => eq_of_fields he he', ?_⟩
  · rintro e rfl
    exact names_members e
  intro c hc
  have agree (m m' : Json) (h : m.get? c.key = m'.get? c.key) :
      (ofMessage m kind).field? c.name = (ofMessage m' kind).field? c.name := by
    rw [field?_ofMessage hc, field?_ofMessage hc, h]
  refine ⟨agree, fun key v members other => ?_, fun members => ?_⟩
  · apply agree
    rw [Json.get?_insertMember, if_neg other]
  · obtain ⟨v, w, varies⟩ := c.reading.value_varies
    by_contra! same
    have constant := (same v).trans (same w).symm
    rw [field?_ofMessage hc, field?_ofMessage hc, Json.get?_insertMember, Json.get?_insertMember,
      if_pos rfl, if_pos rfl, Option.some_inj] at constant
    exact varies constant

/-- Among the members of a quote, `BidSz` is not the size of the bid. -/
theorem bidSize_exact_key :
    (Json.object [("BidSz", .string "99"), ("ask", .null), ("bidsz", .string "12")]).get? "bidsz" =
        (Json.object [("bidsz", .string "12")]).get? "bidsz" ∧
      (ofMessage (.object [("BidSz", .string "99"), ("ask", .null), ("bidsz", .string "12")])
          .quote).field? "bid_size" =
        (ofMessage (.object [("bidsz", .string "12")]) .quote).field? "bid_size" := by
  obtain ⟨-, -, -, -, columns⟩ := fields_by_key .quote
  obtain ⟨agree, -⟩ := columns ⟨"bid_size", "bidsz", .int⟩ (by decide)
  have same : (Json.object [("BidSz", .string "99"), ("ask", .null), ("bidsz", .string "12")]).get?
      "bidsz" = (Json.object [("bidsz", .string "12")]).get? "bidsz" := by rfl
  exact ⟨same, agree _ _ same⟩

end Event

end MarketFeed
