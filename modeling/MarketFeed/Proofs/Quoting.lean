import Mathlib
import MarketFeed.Event
import MarketFeed.Proofs.Numerals
import MarketFeed.Proofs.Texts
import MarketFeed.Proofs.Trimming

/-!
# Numbers and quoted numbers

A text that is read as a number is a literal, and the same text in quotes is a numeral. The two are
coerced to the same double exactly where the number is read as the nearest one.
-/

namespace MarketFeed

/-! ## Texts of numbers -/

namespace Json

open Reader

/-- A container was opened, so that the value of the text is no number. -/
def Inside : State → Prop
  | .value levels => levels ≠ []
  | .done (.number _) levels => levels ≠ []
  | _ => True

theorem Inside.step {s s' : State} {t : Token} (h : Inside s) (hs : Reader.step s t = some s') :
    Inside s' := by
  have start {levels : List Level} (ne : levels ≠ []) (ht : startValue levels t = some s') :
      Inside s' := by
    unfold startValue at ht
    split at ht
    · rename_i v
      cases ht
      cases v with
      | number => exact ne
      | _ => trivial
    · split_ifs at ht
      cases ht
      trivial
    · split_ifs at ht
      cases ht
      trivial
    · cases ht
  unfold Reader.step at hs
  split at hs
  · exact start h hs
  · cases hs
    trivial
  · exact start (List.cons_ne_nil _ _) hs
  all_goals
    cases hs
    try trivial
  · exact List.cons_ne_nil _ _
  · exact List.cons_ne_nil _ _

theorem Inside.run {ts : List Token} {s s' : State} (h : Inside s)
    (hs : ts.foldlM Reader.step s = some s') : Inside s' := by
  induction ts generalizing s with
  | nil =>
    cases hs
    exact h
  | cons t ts ih =>
    rw [List.foldlM_cons] at hs
    obtain ⟨s₁, first, rest⟩ := Option.bind_eq_some_iff.1 hs
    exact ih (h.step first) rest

theorem ofTokens?_number {ts : List Token} {n : Json.Number} (h : ofTokens? ts = some (.number n)) :
    ts = [.scalar (.number n)] := by
  unfold ofTokens? at h
  obtain ⟨s, run, result⟩ := Option.bind_eq_some_iff.1 h
  have last : s = .done (.number n) [] := by
    unfold result? at result
    split at result
    · cases result
      rfl
    · cases result
  subst last
  obtain _ | ⟨t, ts⟩ := ts
  · cases run
  · rw [List.foldlM_cons] at run
    obtain ⟨s₁, first, rest⟩ := Option.bind_eq_some_iff.1 run
    by_cases inside : Inside s₁
    · exact absurd rfl (inside.run rest)
    · -- What is not in a container after the first token is a number, and has been read.
      cases t with
      | scalar v =>
        cases first
        obtain _ | ⟨t', ts⟩ := ts
        · cases rest
          rfl
        · rw [List.foldlM_cons] at rest
          obtain ⟨s₂, second, -⟩ := Option.bind_eq_some_iff.1 rest
          cases second
      | openArray | openObject =>
        cases first
        exact absurd trivial inside
      | _ => cases first

theorem tokens?_single {cs : List Char} {t : Token} (h : tokens? cs = some [t]) :
    ∃ left text right, cs = left ++ text ∧ Token.next? text = some (t, right) ∧
      (∀ c ∈ left, Token.isGap c = true) ∧ ∀ c ∈ right, Token.isGap c = true := by
  rw [tokens?] at h
  split_ifs at h with empty
  · cases h
  split at h
  · cases h
  · rename_i t' rest next
    obtain ⟨ts, others, single⟩ := Option.map_eq_some_iff.1 h
    cases single
    refine ⟨cs.takeWhile Token.isGap, _, rest, (List.takeWhile_append_dropWhile).symm, next,
      fun c hc => List.mem_takeWhile_imp hc, ?_⟩
    rw [tokens?] at others
    split_ifs at others with gaps
    · simpa using gaps
    · split at others
      · cases others
      · obtain ⟨_, _, more⟩ := Option.map_eq_some_iff.1 others
        cases more

theorem Token.next?_number {cs rest : List Char} {n : Json.Number}
    (h : next? cs = some (scalar (.number n), rest)) :
    ∃ (l : Literal) (text : List Char), cs = text ++ rest ∧ l.Spells text ∧ l.number? = some n := by
  unfold next? at h
  split at h
  · cases h
  · cases h
  · cases h
  · unfold Token.string? at h
    split at h <;> cases h
  · cases h
  · rename_i c cs _ _ _ _
    split at h
    · rename_i t mark
      cases h
      unfold mark? at mark
      split at mark <;> cases mark
    · unfold number? at h
      split at h
      · rename_i l rest' read
        split at h
        · rename_i n' number
          cases h
          obtain ⟨text, split, spells⟩ := Literal.spells_of_read? read
          exact ⟨l, text, split, spells, number⟩
        · cases h
      · cases h

theorem isBlank_of_isGap {c : Char} (h : Token.isGap c = true) : isBlank c = true := by
  obtain rfl | rfl | rfl | rfl := Token.isGap_iff.1 h <;> decide

theorem literal_of_parse? {t : String} {n : Json.Number} (h : parse? t = some (.number n)) :
    ∃ l : Literal, l.Spells (trim t.toList) ∧ l.number? = some n := by
  unfold parse? at h
  obtain ⟨ts, tokens, value⟩ := Option.bind_eq_some_iff.1 h
  rw [ofTokens?_number value] at tokens
  obtain ⟨left, body, right, split, next, leftGaps, rightGaps⟩ := tokens?_single tokens
  obtain ⟨l, text, rfl, spells, number⟩ := Token.next?_number next
  obtain ⟨nonempty, solid⟩ := spells.not_blank
  have trimmed : trim t.toList = text := by
    rw [split]
    exact trim_padded (fun c hc => isBlank_of_isGap (leftGaps c hc)) (.of_solid solid)
      (fun c hc => isBlank_of_isGap (rightGaps c hc)) nonempty
  exact ⟨l, trimmed ▸ spells, number⟩

/-! ## Fields -/

theorem get?_insertMember (key key' : String) (v : Json) (members : List (String × Json)) :
    (object (insertMember key v members)).get? key' =
      if key = key' then some v else (object members).get? key' := by
  unfold get?
  dsimp only
  induction members with
  | nil => by_cases same : key = key' <;> simp [insertMember, same]
  | cons m members ih =>
    obtain ⟨k, w⟩ := m
    unfold insertMember
    by_cases first : key = k
    · rw [if_pos first]
      by_cases same : key = key' <;> simp_all
    · rw [if_neg first]
      by_cases less : key < k
      · rw [if_pos less]
        by_cases same : key = key' <;> simp [same]
      · rw [if_neg less]
        by_cases found : k = key'
        · have other : key ≠ key' := fun e => first (e.trans found.symm)
          simp [found, other]
        · simp only [List.find?_cons, beq_eq_false_iff_ne.2 found]
          exact ih

end Json

open MarketFeed.Field

namespace Event

def floats : Event → List Binary64
  | trade e => [e.price, e.last]
  | quote e => [e.bid, e.ask]
  | summary e => [e.opening, e.high, e.low, e.previousClose]
  | timesale e => [e.bid, e.ask, e.last]
  | order e =>
    [e.price, e.stopPrice, e.averageFillPrice, e.executedQuantity, e.lastFillQuantity,
      e.remainingQuantity]
  | position e => [e.quantity, e.costBasis]

def floatKeys : EventKind → List String
  | .trade => ["price", "last"]
  | .quote => ["bid", "ask"]
  | .summary => ["open", "high", "low", "prevClose"]
  | .timesale => ["bid", "ask", "last"]
  | .order =>
    ["price", "stop_price", "avg_fill_price", "executed_quantity", "last_fill_quantity",
      "remaining_quantity"]
  | .position => ["quantity", "cost_basis"]

theorem floats_ofMessage (m : Json) (kind : EventKind) :
    (ofMessage m kind).floats = (floatKeys kind).map (float m) := by
  cases kind <;> rfl

theorem floats_insertMember {v w : Json} (h : coerceFloat (some v) .zero = coerceFloat (some w) .zero)
    (kind : EventKind) (key : String) (members : List (String × Json)) :
    (ofMessage (.object (Json.insertMember key v members)) kind).floats =
      (ofMessage (.object (Json.insertMember key w members)) kind).floats := by
  rw [floats_ofMessage, floats_ofMessage]
  apply List.map_congr_left
  intro key' _
  unfold float
  rw [Json.get?_insertMember, Json.get?_insertMember]
  split_ifs
  · exact h
  · rfl

end Event

theorem Field.coerceFloat_string {t : String} {l : Json.Literal} (h : l.Spells (trim t.toList))
    (d : Binary64) :
    coerceFloat (some (.string t)) d = if l.nearest.isFinite then l.nearest else d := by
  show ((Binary64.ofText? (trim t.toList)).filter Binary64.isFinite).getD d = _
  rw [Json.Literal.ofText?_spelled h, Option.filter_some]
  split_ifs <;> rfl

/-- A number and its text as a string coerce alike exactly where the number is read as the double
nearest to the literal, as every plain literal is. An event then has the same doubles from both. -/
theorem Field.quoted_agrees_iff {t : String} {n : Json.Number}
    (h : Json.parse? t = some (.number n)) :
    ∃ l : Json.Literal, l.Spells (trim t.toList) ∧
      (l.nearest.isFinite = true → l.nearest.IsNearest l.toRat) ∧
      ((∀ d, coerceFloat (some (.number n)) d = coerceFloat (some (.string t)) d) ↔
        n.toBinary64 = l.nearest) ∧
      (l.Plain → n.toBinary64 = l.nearest) ∧
      (n.toBinary64 = l.nearest → ∀ kind key members,
        (Event.ofMessage (.object (Json.insertMember key (.number n) members)) kind).floats =
          (Event.ofMessage (.object (Json.insertMember key (.string t) members)) kind).floats) := by
  obtain ⟨l, spells, number⟩ := Json.literal_of_parse? h
  have asNumber (d : Binary64) : coerceFloat (some (.number n)) d = n.toBinary64 := rfl
  have asString := coerceFloat_string spells
  have agree (nearest : n.toBinary64 = l.nearest) (d : Binary64) :
      coerceFloat (some (.number n)) d = coerceFloat (some (.string t)) d := by
    have finite := Json.Literal.number?_finite number
    rw [nearest] at finite
    rw [asNumber, asString, if_pos finite, nearest]
  refine ⟨l, spells, Binary64.ofDecimal_nearest, ⟨fun same => ?_, agree⟩, fun plain => ?_,
    fun nearest kind key members => ?_⟩
  · have := same l.nearest
    rwa [asNumber, asString, ite_self] at this
  · obtain ⟨n', number', nearest⟩ := Json.Literal.number?_plain plain
    cases number.symm.trans number'
    exact nearest
  · exact Event.floats_insertMember (agree nearest _) kind key members

theorem Field.shortPrice_agrees :
    Json.parse? "150.25" = some (.number (.real (.finite false (601 <<< 1072)))) ∧
      coerceFloat (some (.number (.real (.finite false (601 <<< 1072))))) .one =
        coerceFloat (some (.string "150.25")) .one := by
  have read : Json.Literal.read? "150.25".toList =
      some (⟨false, ['1', '5', '0'], some ['2', '5'], none⟩, []) := by decide
  have parsed : Json.parse? "150.25" = some (.number (.real (.finite false (601 <<< 1072)))) :=
    Json.parse?_of_read? read (by decide +kernel)
  obtain ⟨l, spells, -, agrees, plain, -⟩ := Field.quoted_agrees_iff parsed
  have literal := Json.Literal.read?_spelled spells Json.Literal.Ends.nil
  rw [List.append_nil] at literal
  cases literal.symm.trans read
  refine ⟨parsed, agrees.2 (plain ⟨by decide, .inr ⟨.of_lt (by decide), ?_, ?_⟩⟩) _⟩
  · decide
  · decide

/-- The seventh part of 100.01, as an average price has it: its digits exceed `2 ^ 53`, and the
division rounds once more. -/
theorem Field.averagePrice_disagrees :
    Json.parse? "14.287142857142857" =
        some (.number (.real (.finite false (8042946405952201 <<< 1025)))) ∧
      coerceFloat (some (.number (.real (.finite false (8042946405952201 <<< 1025))))) .zero ≠
        coerceFloat (some (.string "14.287142857142857")) .zero := by
  have read : Json.Literal.read? "14.287142857142857".toList =
      some (⟨false, ['1', '4'], some "287142857142857".toList, none⟩, []) := by decide
  refine ⟨Json.parse?_of_read? read (by decide +kernel), ?_⟩
  decide +kernel

end MarketFeed
