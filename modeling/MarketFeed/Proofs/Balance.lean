import Mathlib
import MarketFeed.Proofs.Pipeline
import MarketFeed.Proofs.Series

/-!
# Balance of the counts

Over a run of messages, between which handlers, filters, rules and the listener may change, the
statistics, the metrics and what the listener heard are all counts of one list: the verdicts, each
with its text and the listener of its time.
-/

namespace MarketFeed

/-! ## Series of messages -/

namespace Sample

def ofMessages : List Sample :=
  (none :: EventKind.all.map some).map received ++
  EventKind.all.flatMap (fun k => [processed k, dispatchTime k, filtered k .symbol,
    filtered k .exchange, filtered k .duplicate]) ++
  [error "parse", error "callback"]

theorem seriesName_inj {s t : Sample} (hs : s ∈ ofMessages) (ht : t ∈ ofMessages)
    (h : s.seriesName = t.seriesName) : s = t := by
  have nodup : (ofMessages.map seriesName).Nodup := by decide +kernel
  exact List.inj_on_of_nodup_map nodup hs ht h

theorem value_eq_count {samples : List Sample} (h : ∀ s ∈ samples, s ∈ ofMessages) {s : Sample}
    (hs : s ∈ ofMessages) : s.value samples = samples.count s := by
  have counters : ∀ s ∈ ofMessages, s.gauge? = none := by decide
  rw [value_eq_countP fun t ht => counters t (h t ht)]
  refine List.countP_congr fun t ht => ?_
  simp only [decide_eq_true_eq, beq_iff_eq]
  exact ⟨seriesName_inj (h t ht) hs, congrArg seriesName⟩

end Sample

/-! ## Receipts -/

namespace Verdict

def delivers : Verdict → Bool
  | delivered _ => true
  | _ => false

def fails : Verdict → Bool
  | malformed | handlerFailed _ => true
  | _ => false

def handlerFails : Verdict → Bool
  | handlerFailed _ => true
  | _ => false

def unread : Verdict → Bool
  | malformed | untyped | unknownType => true
  | _ => false

def heldBack? : Verdict → Option FilterReason
  | filteredSymbol => some .symbol
  | filteredExchange => some .exchange
  | duplicate => some .duplicate
  | _ => none

inductive Reports : Verdict → FeedError → Prop
  | malformed : Reports malformed Dispatcher.malformedMessage
  | handlerFailed (kind : EventKind) (detail : String) :
      Reports (handlerFailed kind) (.callback kind detail)

theorem Reports.fails {v : Verdict} {e : FeedError} (h : Reports v e) : v.fails = true := by
  cases h <;> rfl

theorem Reports.delivers {v : Verdict} {e : FeedError} (h : Reports v e) : v.delivers = false := by
  cases h <;> rfl

def samples (kind : Option EventKind) : Verdict → List Sample
  | delivered k => [.dispatchTime k, .processed k]
  | handlerFailed k => [.dispatchTime k, .error "callback"]
  | malformed => [.error "parse"]
  | v => (v.heldBack?.bind fun reason => kind.map (.filtered · reason)).toList

end Verdict

def Json.kind? (text : String) : Option EventKind :=
  (Json.parse? text).bind fun message =>
    (Dispatcher.textMember? message "type").bind EventKind.ofName?

namespace Receipt

def kind? (r : Receipt) : Option EventKind := Json.kind? r.text

def complains (r : Receipt) : Bool := r.verdict.fails && r.listener ≠ .absent

def samples (r : Receipt) : List Sample := .received r.kind? :: r.verdict.samples r.kind?

end Receipt

structure Journal.Entered (j j' : Journal) (rs : List Receipt) : Prop where
  received : j'.statistics.received = j.statistics.received + rs.length
  processed : j'.statistics.processed = j.statistics.processed + rs.countP (·.verdict.delivers)
  errors : j'.statistics.errors = j.statistics.errors + rs.countP (·.verdict.fails)
  samples : j'.samples = j.samples ++ rs.flatMap Receipt.samples
  unread : ∀ r ∈ rs, r.kind?.isNone = r.verdict.unread
  heard : ∃ errors, j'.heard = j.heard ++ errors ∧
    List.Forall₂ Verdict.Reports ((rs.filter Receipt.complains).map Receipt.verdict) errors

namespace Journal

theorem Entered.nil (j : Journal) : Entered j j [] :=
  ⟨rfl, rfl, rfl, (List.append_nil _).symm, fun _ h => absurd h List.not_mem_nil,
    [], (List.append_nil _).symm, .nil⟩

theorem Entered.append {j j' j'' : Journal} {rs rs' : List Receipt} (h : Entered j j' rs)
    (h' : Entered j' j'' rs') : Entered j j'' (rs ++ rs') := by
  obtain ⟨errors, he, hr⟩ := h.heard
  obtain ⟨errors', he', hr'⟩ := h'.heard
  refine ⟨?_, ?_, ?_, ?_, ?_, errors ++ errors', ?_, ?_⟩
  · rw [h'.received, h.received, List.length_append, Nat.add_assoc]
  · rw [h'.processed, h.processed, List.countP_append, Nat.add_assoc]
  · rw [h'.errors, h.errors, List.countP_append, Nat.add_assoc]
  · rw [h'.samples, h.samples, List.flatMap_append, List.append_assoc]
  · intro r hm
    exact (List.mem_append.1 hm).elim (h.unread r) (h'.unread r)
  · rw [he', he, List.append_assoc]
  · rw [List.filter_append, List.map_append]
    exact List.rel_append hr hr'

/-- Between two journals one message was counted, with these samples after that of its receipt, and
no error was reported. -/
structure Counted (j j' : Journal) (kind : Option EventKind) (processed : Nat)
    (samples : List Sample) : Prop where
  received : j'.statistics.received = j.statistics.received + 1
  processed : j'.statistics.processed = j.statistics.processed + processed
  errors : j'.statistics.errors = j.statistics.errors
  samples : j'.samples = j.samples ++ .received kind :: samples
  listener : j'.listener = j.listener
  heard : j'.heard = j.heard

section
variable {j j' : Journal} {r : Receipt} {kind : Option EventKind} {processed : Nat}
  {samples : List Sample}

theorem Counted.sample (h : Counted j j' kind processed samples) (s : Sample) :
    Counted j (j'.sample s) kind processed (samples ++ [s]) := by
  refine ⟨h.received, h.processed, h.errors, ?_, h.listener, h.heard⟩
  show j'.samples ++ [s] = _
  rw [h.samples, List.append_assoc]
  rfl

theorem Counted.process (h : Counted j j' kind processed samples) :
    Counted j (j'.modifyStatistics (·.countProcessed)) kind (processed + 1) samples :=
  ⟨h.received, congrArg (· + 1) h.processed, h.errors, h.samples, h.listener, h.heard⟩

theorem Counted.entered (h : Counted j j' kind processed samples) (hk : r.kind? = kind)
    (hu : kind.isNone = r.verdict.unread) (hf : r.verdict.fails = false)
    (hp : r.verdict.delivers.toNat = processed) (hs : r.verdict.samples kind = samples) :
    Entered j j' [r] := by
  have hc : r.complains = false := by simp [Receipt.complains, hf]
  refine ⟨h.received, ?_, ?_, ?_, ?_, [], ?_, ?_⟩
  · rw [h.processed, ← hp]
    cases hd : r.verdict.delivers <;> simp [hd]
  · simp [h.errors, hf]
  · simp [h.samples, Receipt.samples, hk, hs]
  · simpa [hk] using hu
  · rw [h.heard, List.append_nil]
  · simp [hc]

theorem Counted.report {e : FeedError} (h : Counted j j' kind 0 samples) (hk : r.kind? = kind)
    (hu : kind.isNone = r.verdict.unread) (hv : Verdict.Reports r.verdict e)
    (hl : r.listener = j.listener) (hs : r.verdict.samples kind = samples ++ [.error e.label]) :
    Entered j (j'.report e) [r] := by
  refine ⟨?_, ?_, ?_, ?_, ?_, ?_⟩
  · simp [Statistics.countError, h.received]
  · simp [Statistics.countError, h.processed, hv.delivers]
  · simp [Statistics.countError, h.errors, hv.fails]
  · simp [h.samples, Receipt.samples, hk, hs]
  · simpa [hk] using hu
  · rw [report_heard, h.listener, h.heard]
    by_cases ha : j.listener = .absent
    · have hc : r.complains = false := by simp [Receipt.complains, hl, ha]
      refine ⟨[], ?_, ?_⟩
      · rw [if_pos ha, List.append_nil]
      · simp [hc]
    · have hc : r.complains = true := by simp [Receipt.complains, hl, ha, hv.fails]
      refine ⟨[e], if_neg ha, ?_⟩
      simpa [hc] using hv

end

end Journal

namespace Dispatcher

variable {d : Dispatcher} {rules : DispatchRules} {text : String}

theorem kind?_eq_some {kind : EventKind} {message : Json} (h : Json.IsMessage text kind message) :
    Json.kind? text = some kind := by
  simp [Json.kind?, h.1, textMember?_eq_some.2 h.2, EventKind.ofName?_name]

theorem kind?_eq_none {message : Json} (h : Json.parse? text = some message)
    (ht : ∀ kind : EventKind, message.get? "type" ≠ some (.string kind.name)) :
    Json.kind? text = none := by
  simp only [Json.kind?, h, Option.bind_some, Option.bind_eq_none_iff]
  intro name hn
  refine EventKind.ofName?_eq_none.2 fun kind hk => ht kind ?_
  rw [hk]
  exact textMember?_eq_some.1 hn

theorem counted_journal (d : Dispatcher) (kind : Option EventKind) :
    d.journal.Counted (d.counted kind).journal kind 0 [] :=
  ⟨rfl, rfl, rfl, rfl, rfl, rfl⟩

theorem handingMessage_counted {kind : EventKind} {message : Json} {handler : Handler} :
    d.journal.Counted (d.handingMessage rules kind message handler).journal (some kind) 0
      [.dispatchTime kind] := by
  rw [handingMessage_journal]
  exact (counted_journal d _).sample _

theorem Fate.entered {v : Verdict} {handed : Option (String × Event)}
    (f : Fate d rules text v handed) :
    d.journal.Entered (d.dispatch rules text).2.journal [⟨text, d.journal.listener, v⟩] := by
  cases f with
  | malformed h =>
    have hk : Json.kind? text = none := by simp [Json.kind?, h]
    rw [dispatch_malformed h]
    exact (counted_journal d none).report hk rfl .malformed rfl rfl
  | untyped h ht =>
    have hk : Json.kind? text = none := kind?_eq_none h fun kind => ht kind.name
    rw [dispatch_untyped h ht]
    exact (counted_journal d none).entered hk rfl rfl rfl rfl
  | unknownType h ht hn =>
    have hk : Json.kind? text = none := kind?_eq_none h fun kind hk =>
      hn kind (Json.string.inj (Option.some.inj (hk.symm.trans ht)))
    rw [dispatch_unknownType h ht hn]
    exact (counted_journal d none).entered hk rfl rfl rfl rfl
  | filteredSymbol h hs =>
    rw [dispatch_filteredSymbol h hs]
    exact ((counted_journal d _).sample _).entered (kind?_eq_some h) rfl rfl rfl rfl
  | filteredExchange h hs he =>
    rw [dispatch_filteredExchange h hs he]
    exact ((counted_journal d _).sample _).entered (kind?_eq_some h) rfl rfl rfl rfl
  | noHandler h hs he hh =>
    rw [dispatch_noHandler h hs he hh]
    exact (counted_journal d _).entered (kind?_eq_some h) rfl rfl rfl rfl
  | duplicate h ha hr =>
    rw [dispatch_duplicate h ha hr]
    exact ((counted_journal d _).sample _).entered (kind?_eq_some h) rfl rfl rfl rfl
  | delivered h ha hr hd =>
    rw [dispatch_delivered h ha hr hd]
    exact (handingMessage_counted.process.sample _).entered (kind?_eq_some h) rfl rfl rfl rfl
  | handlerFailed h ha hr hd =>
    obtain ⟨detail, hf⟩ := Option.ne_none_iff_exists'.1 fun h => hd (Reply.failure?_eq_none.1 h)
    rw [dispatch_handlerFailed h ha hr hf]
    exact handingMessage_counted.report (kind?_eq_some h) rfl (.handlerFailed _ detail) rfl rfl

theorem dispatch_received (d : Dispatcher) (rules : DispatchRules) (text : String) :
    (d.dispatch rules text).2.journal.statistics.received = d.journal.statistics.received + 1 := by
  obtain ⟨v, handed, f⟩ := exists_fate d rules text
  exact f.entered.received

theorem take_entered (rules : DispatchRules) (d : Dispatcher) (turn : Turn) :
    d.journal.Entered (d.take rules turn).2.2.journal (d.take rules turn).1 := by
  cases turn with
  | text text =>
    obtain ⟨v, handed, f⟩ := exists_fate d rules text
    have h := f.entered
    rw [← f.dispatch.1] at h
    exact h
  | listen listener =>
    exact ⟨rfl, rfl, rfl, (List.append_nil _).symm, fun _ h => absurd h List.not_mem_nil,
      [], (List.append_nil _).symm, .nil⟩
  | _ => exact .nil _

theorem run_entered (turns : List Turn) (rules : DispatchRules) (d : Dispatcher) :
    d.journal.Entered (d.run rules turns).2.journal (d.run rules turns).1 := by
  induction turns generalizing rules d with
  | nil => exact .nil _
  | cons turn rest ih => exact (take_entered rules d turn).append (ih _ _)

end Dispatcher

/-! ## Counts -/

namespace Receipt

def counts (r : Receipt) : Sample → Bool
  | .received kind => r.kind? = kind
  | .processed kind => r.verdict = .delivered kind
  | .filtered kind reason => r.kind? = some kind ∧ r.verdict.heldBack? = some reason
  | .dispatchTime kind => r.verdict = .delivered kind ∨ r.verdict = .handlerFailed kind
  | .error label =>
    label = "parse" ∧ r.verdict = .malformed ∨ label = "callback" ∧ r.verdict.handlerFails
  | _ => false

theorem mem_samples {r : Receipt} {s : Sample} : s ∈ r.samples ↔ r.counts s = true := by
  unfold samples
  cases s with
  | received kind =>
    cases r.verdict <;> cases hk : r.kind? <;>
      simp [counts, Verdict.samples, Verdict.heldBack?, hk] <;> exact eq_comm
  | error label =>
    cases hv : r.verdict <;> cases r.kind? <;>
      simp [counts, Verdict.samples, Verdict.heldBack?, Verdict.handlerFails, hv]
  | _ =>
    cases hv : r.verdict <;> cases hk : r.kind? <;>
      simp [counts, Verdict.samples, Verdict.heldBack?, hv, hk, @eq_comm EventKind,
        @eq_comm FilterReason]

theorem samples_ofMessages (r : Receipt) : ∀ s ∈ r.samples, s ∈ Sample.ofMessages := by
  unfold samples
  cases r.verdict <;> cases r.kind? <;>
    simp [Verdict.samples, Verdict.heldBack?, Sample.ofMessages, EventKind.mem_all]

theorem samples_nodup (r : Receipt) : r.samples.Nodup := by
  unfold samples
  cases r.verdict <;> cases r.kind? <;> simp [Verdict.samples, Verdict.heldBack?]

theorem count_samples (rs : List Receipt) (s : Sample) :
    (rs.flatMap samples).count s = rs.countP (·.counts s) := by
  induction rs with
  | nil => rfl
  | cons r rs ih =>
    rw [List.flatMap_cons, List.count_append, ih, List.countP_cons, Nat.add_comm]
    by_cases hs : s ∈ r.samples
    · simp [mem_samples.1 hs, List.count_eq_one_of_mem r.samples_nodup hs]
    · have hc : ¬ r.counts s = true := fun h => hs (mem_samples.2 h)
      simp [hc, List.count_eq_zero_of_not_mem hs]

theorem sum_received (rs : List Receipt) :
    ((none :: EventKind.all.map some).map fun kind => rs.countP (·.counts (.received kind))).sum =
      rs.length := by
  induction rs with
  | nil => rfl
  | cons r rs ih =>
    simp only [EventKind.all, List.map_cons, List.map_nil, List.sum_cons, List.sum_nil,
      List.countP_cons, List.length_cons] at ih ⊢
    cases hk : r.kind? with
    | none =>
      simp [counts, hk] at ih ⊢
      omega
    | some kind =>
      cases kind <;> simp [counts, hk] at ih ⊢ <;> omega

end Receipt

/-- What a journal records is what these receipts come to. -/
structure Balance (rs : List Receipt) (j : Journal) : Prop where
  received : j.statistics.received = rs.length
  processed : j.statistics.processed = rs.countP (·.verdict.delivers)
  errors : j.statistics.errors = rs.countP (·.verdict.fails)
  series : ∀ s ∈ Sample.ofMessages, s.value j.samples = rs.countP (·.counts s)
  unknown : (Sample.received none).value j.samples = rs.countP (·.verdict.unread)
  sum : ((none :: EventKind.all.map some).map fun kind =>
    (Sample.received kind).value j.samples).sum = j.statistics.received
  heard : List.Forall₂ Verdict.Reports ((rs.filter Receipt.complains).map Receipt.verdict) j.heard

theorem Journal.Entered.balance {j : Journal} {rs : List Receipt} (h : Entered {} j rs) :
    Balance rs j := by
  have samples : j.samples = rs.flatMap Receipt.samples := h.samples
  have series : ∀ s ∈ Sample.ofMessages, s.value j.samples = rs.countP (·.counts s) := by
    intro s hs
    rw [samples, Sample.value_eq_count _ hs, Receipt.count_samples]
    intro t ht
    obtain ⟨r, -, hr⟩ := List.mem_flatMap.1 ht
    exact r.samples_ofMessages t hr
  have receivedSeries : ∀ kind, (Sample.received kind).value j.samples =
      rs.countP (·.counts (.received kind)) := by
    intro kind
    refine series _ ?_
    cases kind <;> simp [Sample.ofMessages, EventKind.mem_all]
  have received : j.statistics.received = rs.length := by
    rw [h.received]
    exact Nat.zero_add _
  refine ⟨received, ?_, ?_, series, ?_, ?_, ?_⟩
  · rw [h.processed]
    exact Nat.zero_add _
  · rw [h.errors]
    exact Nat.zero_add _
  · rw [receivedSeries]
    refine List.countP_congr fun r hr => ?_
    rw [← h.unread r hr]
    simp [Receipt.counts]
  · simp only [receivedSeries]
    rw [Receipt.sum_received, received]
  · obtain ⟨errors, he, hr⟩ := h.heard
    rw [he]
    exact hr

/-- Over every run from a fresh dispatcher the counts balance: there is one receipt for each text,
each is counted as received, and its verdict where it belongs and nowhere else. -/
theorem Dispatcher.run_balance (registry : Registry) (rules : DispatchRules) (turns : List Turn) :
    let (receipts, d) := run rules { registry } turns
    receipts.map Receipt.text = turns.filterMap Turn.text? ∧ Balance receipts d.journal :=
  ⟨run_texts turns rules { registry }, (run_entered turns rules { registry }).balance⟩

end MarketFeed
