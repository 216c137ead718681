import Mathlib
import MarketFeed.Proofs.Columns
import MarketFeed.Proofs.Contents

/-!
# Doubles of an event

Whatever a message holds, the doubles of its event are finite, and so an event is always printed with
numbers. A literal that is too large for a double is no number, and a string that spells none or too
large a one gives the default.
-/

namespace MarketFeed

theorem Json.finite?_finite {v : Json} (h : v.Every Number.Spelled) {x : Binary64}
    (hx : v.finite? = some x) : x.isFinite = true := by
  cases h with
  | number spelled =>
    obtain ⟨l, number⟩ := spelled
    cases hx
    exact Literal.number?_finite number
  | string s => exact (Option.filter_eq_some_iff.1 hx).2
  | null | bool | array | object => cases hx

theorem Field.float_finite {text : String} {message : Json} (h : Json.parse? text = some message)
    (key : String) : (float message key).isFinite = true := by
  show (((message.get? key).bind Json.finite?).getD .zero).isFinite = true
  cases held : (message.get? key).bind Json.finite? with
  | none => rfl
  | some x =>
    obtain ⟨v, found, read⟩ := Option.bind_eq_some_iff.1 held
    exact Json.finite?_finite ((Json.spelled_of_parse? h).get? found) read

theorem Json.ofBinary64_finite {x : Binary64} (h : x.isFinite = true) :
    ofBinary64 x = .number (.real x) := by
  cases x with
  | finite => rfl
  | nan | infinite => cases h

namespace Event

/-- No message gives an event with a double that is not finite. -/
theorem floats_finite {text : String} {message : Json} (h : Json.parse? text = some message)
    (kind : EventKind) :
    (∀ x ∈ (ofMessage message kind).floats, x.isFinite = true) ∧
      ∀ c ∈ columns kind, c.reading = .float →
        ∃ x : Binary64, x.isFinite = true ∧
          (ofMessage message kind).field? c.name = some (.number (.real x)) := by
  constructor
  · rw [floats_ofMessage]
    exact List.forall_mem_map.2 fun key _ => Field.float_finite h key
  · intro c hc double
    have finite := Field.float_finite h c.key
    refine ⟨_, finite, ?_⟩
    rw [field?_ofMessage hc, double, ← Json.ofBinary64_finite finite]
    rfl

theorem floats_finite_overflow :
    Json.parse? "\x7b\"last\":\"-1e999\",\"price\":\"inf\"\x7d" =
        some (.object [("last", .string "-1e999"), ("price", .string "inf")]) ∧
      ∀ x ∈ (ofMessage (.object [("last", .string "-1e999"), ("price", .string "inf")])
        .trade).floats, x.isFinite = true := by
  have parsed : Json.parse? "\x7b\"last\":\"-1e999\",\"price\":\"inf\"\x7d" =
      some (.object [("last", .string "-1e999"), ("price", .string "inf")]) := by cbv
  exact ⟨parsed, (floats_finite parsed .trade).1⟩

end Event

end MarketFeed
