import Mathlib.Data.Finset.Card
import Mathlib.Data.List.Induction
import Mathlib.Data.List.Nodup
import MarketFeed.Proofs.Pipeline

/-!
# Statistics of messages handled at once

The statistics change in one go, but a message touches them up to twice: when it came in, and when
its handler is done. Other messages may come in between, and the statistics may be reset. A schedule
lists all touches in the order in which they take place; the touches of one message come in the order
in which dispatching makes them. A message that came in before a reset and is done after it is counted
as processed only, so processed messages can outnumber received ones.
-/

namespace MarketFeed

/-- What is done to the statistics in one go. Messages are told apart by a number. -/
inductive Touch where
  | received (message : Nat)
  | processed (message : Nat)
  /-- An error of a message, or one that has to do with none. -/
  | error (message : Option Nat)
  | reconnect
  | started
  | reset
  deriving DecidableEq, Repr

def Touch.message? : Touch → Option Nat
  | received m | processed m => some m
  | error m => m
  | reconnect | started | reset => none

def Statistics.touch (s : Statistics) : Touch → Statistics
  | .received _ => s.countReceived
  | .processed _ => s.countProcessed
  | .error _ => s.countError
  | .reconnect => s.countReconnect
  | .started => s.markStarted
  | .reset => {}

def Verdict.touches (v : Verdict) (m : Nat) : List Touch :=
  .received m :: match v with
    | delivered _ => [.processed m]
    | malformed | handlerFailed _ => [.error (some m)]
    | _ => []

theorem Dispatcher.dispatch_touches (d : Dispatcher) (rules : DispatchRules) (text : String)
    (m : Nat) : (d.dispatch rules text).2.journal.statistics =
      ((d.dispatch rules text).1.touches m).foldl Statistics.touch d.journal.statistics := by
  obtain ⟨v, handed, f⟩ := exists_fate d rules text
  cases f with
  | malformed h =>
    rw [dispatch_malformed h]
    exact Journal.report_statistics ..
  | untyped h ht => rw [dispatch_untyped h ht]; rfl
  | unknownType h ht hn => rw [dispatch_unknownType h ht hn]; rfl
  | filteredSymbol h hs => rw [dispatch_filteredSymbol h hs]; rfl
  | filteredExchange h hs he => rw [dispatch_filteredExchange h hs he]; rfl
  | noHandler h hs he hh => rw [dispatch_noHandler h hs he hh]; rfl
  | duplicate h ha hr => rw [dispatch_duplicate h ha hr]; rfl
  | delivered h ha hr hd =>
    rw [dispatch_delivered h ha hr hd]
    simp only [modifyJournal, handingMessage_journal]
    rfl
  | handlerFailed h ha hr hd =>
    obtain ⟨detail, hf⟩ := Option.ne_none_iff_exists'.1 fun h => hd (Reply.failure?_eq_none.1 h)
    rw [dispatch_handlerFailed h ha hr hf]
    simp only [modifyJournal, handingMessage_journal, Journal.report_statistics]
    rfl

namespace Touch

def received? : Touch → Option Nat
  | received m => some m
  | _ => none

def processed? : Touch → Option Nat
  | processed m => some m
  | _ => none

theorem received?_eq_some {t : Touch} {m : Nat} : t.received? = some m ↔ t = .received m := by
  cases t <;> simp [received?]

theorem processed?_eq_some {t : Touch} {m : Nat} : t.processed? = some m ↔ t = .processed m := by
  cases t <;> simp [processed?]

/-- Any number of messages are handled at once: of each, the schedule has the touches of some way
to end, in order, as far as it has got. -/
def Interleaved (schedule : List Touch) : Prop :=
  ∀ m, ∃ v : Verdict, schedule.filter (·.message? = some m) <+: v.touches m

def after (schedule : List Touch) : Statistics := schedule.foldl Statistics.touch {}

def sinceReset (schedule : List Touch) : List Touch :=
  schedule.foldl (fun touches t => if t = .reset then [] else touches ++ [t]) []

def arrived (schedule : List Touch) : Finset Nat :=
  ((sinceReset schedule).filterMap received?).toFinset

def finished (schedule : List Touch) : Finset Nat :=
  ((sinceReset schedule).filterMap processed?).toFinset

/-- The messages that came in before the latest reset and were processed after it. -/
def late (schedule : List Touch) : Finset Nat := finished schedule \ arrived schedule

def pending (schedule : List Touch) : Finset Nat := arrived schedule \ finished schedule

def Straddles (schedule : List Touch) (m : Nat) : Prop :=
  ∃ earlier later, schedule = earlier ++ .reset :: later ∧
    .received m ∈ earlier ∧ .processed m ∈ later

/-! ## Counters -/

theorem after_snoc (schedule : List Touch) (t : Touch) :
    after (schedule ++ [t]) = (after schedule).touch t := by
  unfold after
  rw [List.foldl_append]
  rfl

theorem sinceReset_snoc (schedule : List Touch) (t : Touch) :
    sinceReset (schedule ++ [t]) = if t = .reset then [] else sinceReset schedule ++ [t] := by
  unfold sinceReset
  rw [List.foldl_append]
  rfl

theorem touch_received (s : Statistics) (t : Touch) :
    (s.touch t).received = if t = .reset then 0 else s.received + t.received?.toList.length := by
  cases t <;> simp [Statistics.touch, Statistics.countReceived, Statistics.countProcessed,
    Statistics.countError, Statistics.countReconnect, Statistics.markStarted, received?]

theorem touch_processed (s : Statistics) (t : Touch) :
    (s.touch t).processed = if t = .reset then 0 else s.processed + t.processed?.toList.length := by
  cases t <;> simp [Statistics.touch, Statistics.countReceived, Statistics.countProcessed,
    Statistics.countError, Statistics.countReconnect, Statistics.markStarted, processed?]

theorem counters_after (schedule : List Touch) :
    (after schedule).received = ((sinceReset schedule).filterMap received?).length ∧
      (after schedule).processed = ((sinceReset schedule).filterMap processed?).length := by
  have one : ∀ which? : Touch → Option Nat, ∀ t,
      ([t].filterMap which?).length = (which? t).toList.length := by
    intro which? t
    cases h : which? t <;> simp [h]
  induction schedule using List.reverseRecOn with
  | nil => exact ⟨rfl, rfl⟩
  | append_singleton schedule t ih =>
    obtain ⟨hr, hp⟩ := ih
    rw [after_snoc, sinceReset_snoc, touch_received, touch_processed]
    by_cases ht : t = .reset
    · simp [ht]
    · simp only [if_neg ht, List.filterMap_append, List.length_append, one, hr, hp, and_self]

theorem eq_sinceReset_or_split (schedule : List Touch) :
    schedule = sinceReset schedule ∨
      ∃ earlier, schedule = earlier ++ .reset :: sinceReset schedule := by
  induction schedule using List.reverseRecOn with
  | nil => exact .inl rfl
  | append_singleton schedule t ih =>
    rw [sinceReset_snoc]
    by_cases ht : t = .reset
    · rw [if_pos ht, ht]
      exact .inr ⟨schedule, rfl⟩
    · rw [if_neg ht]
      obtain h | ⟨earlier, h⟩ := ih
      · exact .inl (congrArg (· ++ [t]) h)
      · refine .inr ⟨earlier, ?_⟩
        have := congrArg (· ++ [t]) h
        simpa using this

theorem sinceReset_suffix (schedule : List Touch) : sinceReset schedule <:+ schedule := by
  obtain h | ⟨earlier, h⟩ := eq_sinceReset_or_split schedule
  · exact h ▸ List.suffix_refl _
  · exact ⟨earlier ++ [.reset], by simpa using h.symm⟩

/-! ## Interleaved schedules -/

section
variable {schedule : List Touch}

theorem Interleaved.initial {before : List Touch} (h : Interleaved schedule)
    (hb : before <+: schedule) : Interleaved before := by
  intro m
  obtain ⟨v, hv⟩ := h m
  exact ⟨v, (hb.filter _).trans hv⟩

theorem Interleaved.count_le_one (h : Interleaved schedule) {t : Touch} {m : Nat}
    (ht : t.message? = some m) : schedule.count t ≤ 1 := by
  obtain ⟨v, hv⟩ := h m
  have own : (schedule.filter (·.message? = some m)).count t = schedule.count t := by
    apply List.count_filter
    simpa using ht
  have once : (v.touches m).Nodup := by cases v <;> simp [Verdict.touches]
  rw [← own]
  apply (hv.sublist.count_le t).trans
  exact List.nodup_iff_count_le_one.1 once t

theorem Interleaved.nodup (h : Interleaved schedule) {which? : Touch → Option Nat}
    (mark : Nat → Touch) (hw : ∀ t m, which? t = some m ↔ t = mark m)
    (hm : ∀ m, (mark m).message? = some m) : ((sinceReset schedule).filterMap which?).Nodup := by
  apply List.nodup_iff_count_le_one.2
  intro m
  have marked : ∀ t, (which? t == some m) = (t == mark m) := by
    intro t
    rw [Bool.eq_iff_iff, beq_iff_eq, beq_iff_eq, hw]
  have since : ((sinceReset schedule).filterMap which?).count m =
      (sinceReset schedule).count (mark m) := by
    rw [List.count_filterMap]
    simp only [marked]
    rfl
  rw [since]
  apply ((sinceReset_suffix schedule).sublist.count_le _).trans
  exact h.count_le_one (hm m)

theorem Interleaved.received_of_processed (h : Interleaved schedule) {m : Nat}
    (hp : .processed m ∈ schedule) : .received m ∈ schedule := by
  obtain ⟨v, hv⟩ := h m
  have own : Touch.processed m ∈ schedule.filter (·.message? = some m) :=
    List.mem_filter.2 ⟨hp, by simp [message?]⟩
  cases hs : schedule.filter (·.message? = some m) with
  | nil =>
    rw [hs] at own
    cases own
  | cons first rest =>
    -- However the message ends, its own touches begin with its receipt.
    rw [hs] at hv
    obtain rfl : first = .received m := (List.cons_prefix_cons.1 hv).1
    have hm : Touch.received m ∈ schedule.filter (·.message? = some m) := by
      rw [hs]
      exact List.mem_cons_self
    exact (List.mem_filter.1 hm).1

theorem mem_arrived {m : Nat} : m ∈ arrived schedule ↔ .received m ∈ sinceReset schedule := by
  simp [arrived, received?_eq_some]

theorem mem_finished {m : Nat} : m ∈ finished schedule ↔ .processed m ∈ sinceReset schedule := by
  simp [finished, processed?_eq_some]

theorem Interleaved.straddles_of_late (h : Interleaved schedule) {m : Nat}
    (hm : m ∈ late schedule) : Straddles schedule m := by
  obtain ⟨hf, ha⟩ := Finset.mem_sdiff.1 hm
  rw [mem_finished] at hf
  rw [mem_arrived] at ha
  have hr : Touch.received m ∈ schedule :=
    h.received_of_processed ((sinceReset_suffix schedule).subset hf)
  obtain he | ⟨earlier, he⟩ := eq_sinceReset_or_split schedule
  · rw [he] at hr
    exact absurd hr ha
  · rw [he, List.mem_append, List.mem_cons] at hr
    obtain hr | hr | hr := hr
    · exact ⟨earlier, _, he, hr, hf⟩
    · cases hr
    · exact absurd hr ha

theorem Straddles.mono {before : List Touch} {m : Nat} (h : Straddles before m)
    (hb : before <+: schedule) : Straddles schedule m := by
  obtain ⟨earlier, later, rfl, hr, hp⟩ := h
  obtain ⟨rest, rfl⟩ := hb
  exact ⟨earlier, later ++ rest, by simp, hr, List.mem_append_left _ hp⟩

theorem Interleaved.balance (h : Interleaved schedule) :
    (after schedule).received + (late schedule).card =
      (after schedule).processed + (pending schedule).card := by
  obtain ⟨hr, hp⟩ := counters_after schedule
  have received : (after schedule).received = (arrived schedule).card := by
    rw [hr, arrived, List.toFinset_card_of_nodup]
    exact h.nodup .received (fun _ _ => received?_eq_some) fun _ => rfl
  have processed : (after schedule).processed = (finished schedule).card := by
    rw [hp, finished, List.toFinset_card_of_nodup]
    exact h.nodup .processed (fun _ _ => processed?_eq_some) fun _ => rfl
  -- Either side counts the messages that arrived or finished since the latest reset.
  calc (after schedule).received + (late schedule).card
      = (finished schedule \ arrived schedule).card + (arrived schedule).card := by
        rw [received, Nat.add_comm]; rfl
    _ = (arrived schedule ∪ finished schedule).card := by
        rw [Finset.card_sdiff_add_card, Finset.union_comm]
    _ = (arrived schedule \ finished schedule).card + (finished schedule).card := by
        rw [Finset.card_sdiff_add_card]
    _ = (after schedule).processed + (pending schedule).card := by
        rw [processed, Nat.add_comm]; rfl

/-- At every snapshot, processed messages do not outnumber received ones just if no more messages
are late than pending. Without a reset between the two counts of a message none is late, and the
dropped messages are the pending ones. -/
theorem processed_le_received_iff (h : Interleaved schedule) :
    (∀ before, before <+: schedule → ((after before).processed ≤ (after before).received ↔
      (late before).card ≤ (pending before).card)) ∧
    ((∀ m, ¬ Straddles schedule m) → ∀ before, before <+: schedule →
      (after before).processed ≤ (after before).received ∧
        (after before).dropped = (pending before).card) := by
  constructor
  · intro before hb
    have balance := (h.initial hb).balance
    omega
  · intro hs before hb
    have balance := (h.initial hb).balance
    have none : (late before).card = 0 := by
      rw [Finset.card_eq_zero, Finset.eq_empty_iff_forall_notMem]
      intro m hm
      apply hs m
      exact ((h.initial hb).straddles_of_late hm).mono hb
    unfold Statistics.dropped
    omega

end

def overlapping : List Touch :=
  [.received 0, .received 1, .reset, .received 2, .processed 1, .error (some 0)]

theorem overlapping_ordered : Interleaved overlapping ∧ late overlapping = {1} ∧
    pending overlapping = {2} ∧ (after overlapping).processed ≤ (after overlapping).received := by
  have h : Interleaved overlapping := by
    intro m
    match m with
    | 0 => exact ⟨.handlerFailed .trade, by decide⟩
    | 1 => exact ⟨.delivered .trade, by decide⟩
    | 2 => exact ⟨.noHandler, by decide⟩
    | m + 3 => exact ⟨.noHandler, by simp [overlapping, message?]⟩
  have equal : (late overlapping).card ≤ (pending overlapping).card := by decide
  exact ⟨h, by decide, by decide, ((processed_le_received_iff h).1 _ List.prefix_rfl).2 equal⟩

def straddling : List Touch := [.received 0, .reset, .processed 0]

theorem straddling_overtakes : Interleaved straddling ∧ (after straddling).received = 0 ∧
    (after straddling).processed = 1 ∧ (after straddling).dropped = 0 := by
  refine ⟨fun m => ?_, by decide, by decide, by decide⟩
  match m with
  | 0 => exact ⟨.delivered .trade, by decide⟩
  | m + 1 => exact ⟨.noHandler, by simp [straddling, message?]⟩

end Touch
end MarketFeed
