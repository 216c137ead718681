import Mathlib
import MarketFeed.Proofs.Bytes
import MarketFeed.Socket

/-!
# Reading a socket

Which texts a reader hands to its handler, over every sequence of arrivals: those that arrive as
texts or as their bytes, in order, up to the first sign that nothing more will arrive. A reader that
is cancelled hands over the first of these. In any case the socket is not open afterwards.
-/

namespace MarketFeed

/-! ## What there is to hand over -/

namespace Incoming

inductive Carries : Incoming → String → Prop
  | text (t : String) : Carries (.text t) t
  | bytes {bs : List UInt8} (t : String) (h : bs = t.toByteArray.data.toList) :
      Carries (.binary bs) t

theorem text?_eq_some_iff {i : Incoming} {t : String} : i.text? = some t ↔ i.Carries t := by
  constructor
  · intro h
    cases i with
    | text s => exact Option.some.inj h ▸ .text s
    | binary bs => exact .bytes t (Utf8.decode?_eq_some_iff.1 h)
    | ping => cases h
    | pong => cases h
    | close => cases h
    | failure => cases h
  · rintro (_ | ⟨_, rfl⟩)
    · rfl
    · exact Utf8.decode?_eq_some_iff.2 rfl

def Ends (i : Incoming) : Prop := i = .close ∨ i = .failure

theorem isLast_iff {i : Incoming} : i.isLast = true ↔ i.Ends := by
  unfold Ends
  cases i <;> simp [isLast]

theorem Carries.not_ends {i : Incoming} {t : String} (h : i.Carries t) : ¬ i.Ends := by
  rintro (rfl | rfl) <;> cases h

end Incoming

open Incoming

inductive Handed : List Incoming → List String → Prop
  | ended : Handed [] []
  | stopped {i rest} (h : Ends i) : Handed (i :: rest) []
  | carried {i t rest ts} (h : Carries i t) (later : Handed rest ts) : Handed (i :: rest) (t :: ts)
  | passed {i rest ts} (goesOn : ¬ Ends i) (h : ∀ t, ¬ Carries i t) (later : Handed rest ts) :
      Handed (i :: rest) ts

variable {items : List Incoming} {texts : List String}

theorem exists_handed (items : List Incoming) : ∃ texts, Handed items texts := by
  induction items with
  | nil => exact ⟨[], .ended⟩
  | cons i rest ih =>
    obtain ⟨ts, later⟩ := ih
    by_cases last : i.Ends
    · exact ⟨[], .stopped last⟩
    · by_cases h : ∃ t, i.Carries t
      · obtain ⟨t, carries⟩ := h
        exact ⟨t :: ts, .carried carries later⟩
      · exact ⟨ts, .passed last (fun t carries => h ⟨t, carries⟩) later⟩

theorem Handed.take (h : Handed items texts) (n : Nat) :
    ∃ first, first <+: texts ∧ Handed (items.take n) first := by
  induction h generalizing n with
  | ended => exact ⟨[], List.prefix_rfl, by rw [List.take_nil]; exact .ended⟩
  | stopped last =>
    cases n with
    | zero => exact ⟨[], List.prefix_rfl, .ended⟩
    | succ n => exact ⟨[], List.prefix_rfl, .stopped last⟩
  | carried carries _ ih =>
    cases n with
    | zero => exact ⟨[], List.nil_prefix, .ended⟩
    | succ n =>
      obtain ⟨first, sub, later⟩ := ih n
      exact ⟨_ :: first, (List.prefix_cons_inj _).2 sub, .carried carries later⟩
  | passed goesOn none _ ih =>
    cases n with
    | zero => exact ⟨[], List.nil_prefix, .ended⟩
    | succ n =>
      obtain ⟨first, sub, later⟩ := ih n
      exact ⟨first, sub, .passed goesOn none later⟩

/-! ## What is handed over -/

namespace Socket

def handedTo (s : Socket) (id : String) (texts : List String) : Socket :=
  { s with isOpen := false, delivered := s.delivered ++ texts.map fun t => (id, t) }

theorem closed_eq_handedTo (s : Socket) (id : String) : s.closed = s.handedTo id [] := by
  unfold handedTo
  rw [List.map_nil, List.append_nil]
  rfl

variable {s : Socket} {id : String}

theorem receive_carried (installed : s.handler = some id) {i : Incoming} {t : String}
    (h : i.Carries t) : s.receive i = { s with delivered := s.delivered ++ [(id, t)] } := by
  unfold receive
  rw [if_neg (mt isLast_iff.1 h.not_ends), text?_eq_some_iff.2 h]
  unfold deliver
  rw [installed]
  rfl

theorem receive_passed {i : Incoming} (goesOn : ¬ i.Ends) (h : ∀ t, ¬ i.Carries t) :
    s.receive i = s := by
  have none : i.text? = none := Option.eq_none_iff_forall_ne_some.2 fun t ht =>
    h t (text?_eq_some_iff.1 ht)
  unfold receive
  rw [if_neg (mt isLast_iff.1 goesOn), none]
  rfl

theorem read_handed (h : Handed items texts) {turns : List Turn}
    (noMore : ∀ s : Socket, s.read turns = s.closed) (installed : s.handler = some id) :
    s.read (items.map .incoming ++ turns) = s.handedTo id texts := by
  induction h generalizing s with
  | ended =>
    rw [List.map_nil, List.nil_append, noMore]
    exact s.closed_eq_handedTo id
  | stopped last =>
    rw [List.map_cons, List.cons_append, read, if_pos (isLast_iff.2 last)]
    exact s.closed_eq_handedTo id
  | @carried i t rest ts carries _ ih =>
    have received := receive_carried installed carries
    have kept : (s.receive i).handler = some id := by
      rw [received]
      exact installed
    rw [List.map_cons, List.cons_append, read, if_neg (mt isLast_iff.1 carries.not_ends), ih kept,
      received]
    simp [handedTo]
  | passed goesOn none _ ih =>
    rw [List.map_cons, List.cons_append, read, if_neg (mt isLast_iff.1 goesOn),
      receive_passed goesOn none, ih installed]

/-- With a handler installed, a reader hands it the texts that arrive up to the end, and then the
socket is not open. Cancelled before some arrival it has handed over the first of them. -/
theorem reader_hands_over (installed : s.handler = some id) (items : List Incoming) :
    (∃ texts, Handed items texts) ∧ ∀ texts, Handed items texts →
      s.read (items.map .incoming) = s.handedTo id texts ∧
      ∀ n turns, ∃ first, first <+: texts ∧ Handed (items.take n) first ∧
        s.read ((items.take n).map .incoming ++ .cancelled :: turns) = s.handedTo id first := by
  refine ⟨exists_handed items, fun texts h => ⟨?_, fun n turns => ?_⟩⟩
  · have all : s.read (items.map .incoming ++ []) = s.handedTo id texts :=
      read_handed h (fun _ => rfl) installed
    rwa [List.append_nil] at all
  · obtain ⟨first, sub, taken⟩ := h.take n
    exact ⟨first, sub, taken, read_handed taken (fun _ => rfl) installed⟩

def arrivals : List Incoming :=
  [.text "SPY", .ping, .binary [0xFF], .binary [0xC3, 0xA9], .close, .text "late"]

theorem arrivals_handed : Handed arrivals ["SPY", "é"] := by
  have malformed : ∀ t, ¬ Carries (.binary [0xFF]) t := by
    intro t carries
    have none : Utf8.decode? [0xFF] = none := by decide +kernel
    cases none.symm.trans (text?_eq_some_iff.2 carries)
  have bytes : Carries (.binary [0xC3, 0xA9]) "é" := by
    apply text?_eq_some_iff.1
    decide +kernel
  exact .carried (.text _) <| .passed (by simp [Ends]) nofun <|
    .passed (by simp [Ends]) malformed <| .carried bytes <| .stopped (.inl rfl)

theorem reader_hands_over_arrivals :
    let s : Socket := { handler := some "feed", held := true, isOpen := true }
    s.handler = some "feed" ∧ Handed arrivals ["SPY", "é"] ∧
      s.read (arrivals.map .incoming) = { s with
        isOpen := false, delivered := [("feed", "SPY"), ("feed", "é")] } :=
  ⟨rfl, arrivals_handed, ((reader_hands_over rfl arrivals).2 _ arrivals_handed).1⟩

end Socket

end MarketFeed
