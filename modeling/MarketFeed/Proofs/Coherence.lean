import Mathlib
import MarketFeed.Proofs.Balance
import MarketFeed.Proofs.Step

/-!
# Coherence of a client

Whether a client is connected is held in several places: its phase, its heartbeat, its identifier
and a gauge; and how many symbols it has in two. After every operation they agree. Most steps touch
neither gauge (`Still`), so only closing, opening and measuring are looked into.
-/

namespace MarketFeed

/-! ## The two gauges -/

namespace Sample

theorem connected_seriesName (value : Bool) :
    (connected value).seriesName = "tradier_stream_connected" := rfl

theorem subscribedSymbols_seriesName (count : Nat) :
    (subscribedSymbols count).seriesName = "tradier_stream_subscribed_symbols" := rfl

theorem connected_of_seriesName {s : Sample} (h : "tradier_stream_connected" = s.seriesName) :
    ∃ value, s = connected value := by
  have hs := series_eq (s := connected true) rfl h
  cases s <;> simp [series] at hs
  exact ⟨_, rfl⟩

theorem subscribedSymbols_of_seriesName {s : Sample}
    (h : "tradier_stream_subscribed_symbols" = s.seriesName) :
    ∃ count, s = subscribedSymbols count := by
  have hs := series_eq (s := subscribedSymbols 0) rfl h
  cases s <;> simp [series] at hs
  exact ⟨_, rfl⟩

end Sample

namespace Journal

def connectedGauge (j : Journal) : Option Nat :=
  Sample.reading? "tradier_stream_connected" j.samples

def symbolsGauge (j : Journal) : Option Nat :=
  Sample.reading? "tradier_stream_subscribed_symbols" j.samples

def SameGauges (j j' : Journal) : Prop :=
  j'.connectedGauge = j.connectedGauge ∧ j'.symbolsGauge = j.symbolsGauge

theorem connectedGauge_sample (j : Journal) (s : Sample) :
    (j.sample s).connectedGauge =
      match s with
      | .connected value => some (if value then 1 else 0)
      | _ => j.connectedGauge := by
  unfold connectedGauge sample
  rw [Sample.reading?_snoc]
  by_cases h : "tradier_stream_connected" = s.seriesName
  · obtain ⟨value, rfl⟩ := Sample.connected_of_seriesName h
    rw [if_pos h]
    rfl
  · rw [if_neg h]
    cases s with
    | connected value => exact absurd (Sample.connected_seriesName value).symm h
    | _ => rfl

theorem symbolsGauge_sample (j : Journal) (s : Sample) :
    (j.sample s).symbolsGauge =
      match s with
      | .subscribedSymbols count => some count
      | _ => j.symbolsGauge := by
  unfold symbolsGauge sample
  rw [Sample.reading?_snoc]
  by_cases h : "tradier_stream_subscribed_symbols" = s.seriesName
  · obtain ⟨count, rfl⟩ := Sample.subscribedSymbols_of_seriesName h
    rw [if_pos h]
    rfl
  · rw [if_neg h]
    cases s with
    | subscribedSymbols count => exact absurd (Sample.subscribedSymbols_seriesName count).symm h
    | _ => rfl

theorem sameGauges_sample (j : Journal) {s : Sample} (hs : s.gauge? = none) :
    SameGauges j (j.sample s) := by
  unfold SameGauges
  rw [connectedGauge_sample, symbolsGauge_sample]
  cases s <;> first | exact ⟨rfl, rfl⟩ | cases hs

theorem SameGauges.of_samples {j j' : Journal} (h : j'.samples = j.samples) : SameGauges j j' := by
  unfold SameGauges connectedGauge symbolsGauge
  rw [h]
  exact ⟨rfl, rfl⟩

theorem SameGauges.trans {j j' j'' : Journal} (h : SameGauges j j') (h' : SameGauges j' j'') :
    SameGauges j j'' :=
  ⟨h'.1.trans h.1, h'.2.trans h.2⟩

theorem sameGauges_append {j j' : Journal} {more : List Sample}
    (h : j'.samples = j.samples ++ more) (hm : ∀ s ∈ more, s.gauge? = none) : SameGauges j j' := by
  induction more generalizing j with
  | nil => exact .of_samples (h.trans (List.append_nil _))
  | cons s more ih =>
    have first := sameGauges_sample j (hm s List.mem_cons_self)
    refine first.trans (ih ?_ fun s hs => hm s (List.mem_cons_of_mem _ hs))
    rw [h]
    simp [sample]

theorem sameGauges_report (j : Journal) (e : FeedError) : SameGauges j (j.report e) := by
  have sampled : (j.report e).samples = j.samples ++ [.error e.label] := report_samples j e
  apply sameGauges_append sampled
  simp [Sample.gauge?]

theorem sameGauges_cycle (j : Journal) (cycle : Cycle) : SameGauges j (j.cycle cycle) := by
  cases cycle with
  | failed e silent => exact (sameGauges_sample j rfl).trans (sameGauges_report _ _)
  | _ => exact ⟨rfl, rfl⟩

end Journal

theorem Dispatcher.sameGauges_dispatch (d : Dispatcher) (rules : DispatchRules) (text : String) :
    d.journal.SameGauges (d.dispatch rules text).2.journal := by
  have counters : ∀ s ∈ Sample.ofMessages, s.gauge? = none := by decide
  obtain ⟨v, handed, f⟩ := exists_fate d rules text
  refine Journal.sameGauges_append f.entered.samples fun s hs => counters s ?_
  obtain ⟨r, -, hr⟩ := List.mem_flatMap.1 hs
  exact r.samples_ofMessages s hr

namespace Client

variable {τ : Type} (w : World τ)

/-! ## What agrees -/

/-- Everything that says whether the client is connected says the same. -/
structure Aligned (c : Client τ) : Prop where
  settled : c.phase = .connected ∨ c.phase = .disconnected
  heartbeat : c.phase = .connected ↔ c.heartbeat.isSome = true
  id : c.phase = .connected ↔ c.hasId = true
  gauge : c.phase = .connected ↔ c.dispatcher.journal.connectedGauge = some 1
  low : c.phase ≠ .connected →
    c.dispatcher.journal.connectedGauge = none ∨ c.dispatcher.journal.connectedGauge = some 0

structure Coherent (c : Client τ) : Prop extends Aligned c where
  symbols : ∀ n, c.dispatcher.journal.symbolsGauge = some n → n = c.dispatcher.registry.symbols.size
  none : c.dispatcher.journal.symbolsGauge = none → c.dispatcher.registry.symbols.size = 0

structure Still (c c' : Client τ) : Prop where
  phase : c'.phase = c.phase
  heartbeat : c'.heartbeat.isSome = c.heartbeat.isSome
  id : c'.hasId = c.hasId
  gauges : c.dispatcher.journal.SameGauges c'.dispatcher.journal
  symbols : c'.dispatcher.registry.symbols = c.dispatcher.registry.symbols

section
variable {w} {c c' : Client τ}

theorem Still.aligned (s : Still c c') (h : Aligned c) : Aligned c' := by
  refine ⟨?_, ?_, ?_, ?_, ?_⟩
  · rw [s.phase]
    exact h.settled
  · rw [s.phase, s.heartbeat]
    exact h.heartbeat
  · rw [s.phase, s.id]
    exact h.id
  · rw [s.phase, s.gauges.1]
    exact h.gauge
  · rw [s.phase, s.gauges.1]
    exact h.low

theorem Coherent.of_aligned (h : Coherent c) (aligned : Aligned c')
    (gauge : c'.dispatcher.journal.symbolsGauge = c.dispatcher.journal.symbolsGauge)
    (symbols : c'.dispatcher.registry.symbols = c.dispatcher.registry.symbols) : Coherent c' := by
  refine ⟨aligned, ?_, ?_⟩
  · rw [gauge, symbols]
    exact h.symbols
  · rw [gauge, symbols]
    exact h.none

theorem Still.coherent (s : Still c c') (h : Coherent c) : Coherent c' :=
  h.of_aligned (s.aligned h.toAligned) s.gauges.2 s.symbols

/-! ## Steps -/

theorem Idle.still (s : Idle w c c') : Still c c' := by
  cases s with
  | ask => exact ⟨rfl, rfl, rfl, ⟨rfl, rfl⟩, rfl⟩
  | pass => exact ⟨rfl, rfl, rfl, ⟨rfl, rfl⟩, rfl⟩
  | beat hc =>
    have beating : true = c.heartbeat.isSome := by rw [hc]; rfl
    rw [beat_apply]
    rcases w.isOpen c.world with ⟨_ | _, s⟩
    · exact ⟨rfl, beating, rfl, ⟨rfl, rfl⟩, rfl⟩
    · by_cases hs : w.stalls (w.now s).2 = true
      · simp only [hs, if_true]
        exact ⟨rfl, beating, rfl, ⟨rfl, rfl⟩, rfl⟩
      · simp only [hs]
        rcases w.send _ _ with ⟨e | _, s⟩
        · exact ⟨rfl, beating, rfl, Journal.sameGauges_cycle _ _, rfl⟩
        · exact ⟨rfl, beating, rfl, ⟨rfl, rfl⟩, rfl⟩

theorem teardown_coherent (h : Coherent c) : Coherent (teardown w c).2 := by
  rw [teardown_apply]
  rcases h.settled with hp | hp
  · rw [if_neg (by rw [hp]; nofun)]
    have low := Journal.connectedGauge_sample c.dispatcher.journal (.connected false)
    have same := Journal.symbolsGauge_sample c.dispatcher.journal (.connected false)
    refine h.of_aligned ?_ same rfl
    refine ⟨.inr rfl, iff_of_false nofun nofun, iff_of_false nofun nofun, ?_, fun _ => .inr low⟩
    refine iff_of_false nofun fun hg => ?_
    cases low.symm.trans hg
  · rw [if_pos hp]
    have out : c.phase ≠ .connected := by rw [hp]; nofun
    refine h.of_aligned ?_ rfl rfl
    refine ⟨.inr rfl, iff_of_false nofun nofun, iff_of_false nofun nofun, ?_, fun _ => h.low out⟩
    exact iff_of_false nofun (mt h.gauge.2 out)

theorem openFor_coherent (session : Session) (hp : c.phase ≠ .connected) (h : Coherent c) :
    Coherent (openFor w session c).2 := by
  rw [openFor_apply]
  rcases w.connect (.ofSession session c.token) c.world with ⟨e | _, s⟩
  · have same := Journal.sameGauges_report c.dispatcher.journal e
    refine h.of_aligned ?_ same.2 rfl
    refine ⟨.inr rfl, ?_, ?_, ?_, ?_⟩
    · exact iff_of_false nofun (mt h.heartbeat.2 hp)
    · exact iff_of_false nofun (mt h.id.2 hp)
    · refine iff_of_false nofun fun hg => ?_
      exact hp (h.gauge.2 (same.1.symm.trans hg))
    · intro _
      exact (h.low hp).imp same.1.trans same.1.trans
  · have high := Journal.connectedGauge_sample
      (c.dispatcher.journal.modifyStatistics (·.markStarted)) (.connected true)
    have same := Journal.symbolsGauge_sample
      (c.dispatcher.journal.modifyStatistics (·.markStarted)) (.connected true)
    refine h.of_aligned ?_ same rfl
    refine ⟨.inl rfl, iff_of_true rfl rfl, iff_of_true rfl rfl, iff_of_true rfl high, ?_⟩
    exact fun out => absurd rfl out

/-- Measuring the symbols makes the second gauge agree, whatever it read before. -/
theorem sampleSymbols_coherent (h : Aligned c) : Coherent (sampleSymbols c).2 := by
  have same := Journal.connectedGauge_sample c.dispatcher.journal
    (.subscribedSymbols c.dispatcher.registry.symbols.size)
  have read := Journal.symbolsGauge_sample c.dispatcher.journal
    (.subscribedSymbols c.dispatcher.registry.symbols.size)
  refine ⟨⟨h.settled, h.heartbeat, h.id, ?_, ?_⟩, ?_, ?_⟩
  · exact h.gauge.trans ⟨same.trans, same.symm.trans⟩
  · exact fun hp => (h.low hp).imp same.trans same.trans
  · intro n hn
    exact (Option.some.inj (read.symm.trans hn)).symm
  · intro hn
    cases read.symm.trans hn

theorem Link.coherent (s : Link w c c') (h : Coherent c) : Coherent c' := by
  cases s with
  | idle s => exact s.still.coherent h
  | hold => exact ⟨⟨h.settled, h.heartbeat, h.id, h.gauge, h.low⟩, h.symbols, h.none⟩
  | renew settings session =>
    refine Still.coherent ?_ h
    rw [renewSession_apply]
    cases grant w settings.ttl session.kind c with
    | ok => exact ⟨rfl, rfl, rfl, ⟨rfl, rfl⟩, rfl⟩
    | error e => exact ⟨rfl, rfl, rfl, Journal.sameGauges_report _ e, rfl⟩
  | close => exact teardown_coherent h
  | openFor session hp => exact openFor_coherent session hp h
  | measure s hs =>
    rcases hs with rfl | rfl
    · refine Still.coherent (c := c) ?_ h
      exact ⟨rfl, rfl, rfl, Journal.sameGauges_sample _ rfl, rfl⟩
    · exact sampleSymbols_coherent h.toAligned

theorem sendReported_still (frame : Frame) (c : Client τ) :
    Still c (sendReported w frame c).2 := by
  rw [sendReported_apply]
  cases (w.send frame c.world).1 with
  | ok => exact ⟨rfl, rfl, rfl, ⟨rfl, rfl⟩, rfl⟩
  | error e => exact ⟨rfl, rfl, rfl, Journal.sameGauges_report _ e, rfl⟩

theorem LineStep.coherent (s : LineStep w c c') (h : Coherent c) : Coherent c' := by
  cases s with
  | link s => exact s.coherent h
  | count => exact Still.coherent (c := c) ⟨rfl, rfl, rfl, .of_samples rfl, rfl⟩ h
  | send frame => exact (sendReported_still frame c).coherent h

theorem Walks.coherent {α : Type} {P : Client τ → Prop} {m : Op τ α} {Q : α → Client τ → Prop}
    (walks : Walks (LineStep w) P m Q) (hp : P c) (h : Coherent c) : Coherent (m c).2 :=
  kept_along (fun _ _ s => s.coherent) (walks c hp).1 h

end

/-! ## Operations -/

theorem sendForMarketKinds_coherent (xs : List String) (frame : EventKind → List String → Frame)
    {c : Client τ} (h : Coherent c) : Coherent (sendForMarketKinds w xs frame c).2 := by
  have sends : ∀ (frames : List Frame) (c : Client τ), Coherent c → Coherent (sendAll w frames c).2 := by
    intro frames
    induction frames with
    | nil => exact fun c h => h
    | cons frame rest ih => exact fun c h => ih _ ((sendReported_still frame c).coherent h)
  have looked : Coherent (isConnected w c).2 :=
    kept_along (fun _ _ s => s.still.coherent) (isConnected_idles w c trivial).1 h
  rw [sendForMarketKinds_apply]
  split
  · exact h
  · split
    · exact sends _ _ looked
    · exact looked

theorem subscribe_coherent (kind : EventKind) (session : Session) (symbols : List String)
    (handler : Handler) {c : Client τ} (h : Coherent c) :
    Coherent (subscribe w kind session symbols handler c).2 := by
  rw [subscribe_apply]
  by_cases ha : session.isActive = true
  · rw [if_pos ha]
    cases subscriptionSymbols kind symbols with
    | error e => exact h
    | ok xs =>
      have prepared : Coherent (prepareSubscription kind session xs handler c).2 :=
        sampleSymbols_coherent ⟨h.settled, h.heartbeat, h.id, h.gauge, h.low⟩
      have connected :=
        Walks.coherent ((ensureConnected_walks w).mono fun _ _ => .link) trivial prepared
      dsimp only
      generalize ensureConnected w (prepareSubscription kind session xs handler c).2 = result at connected
      rcases result with ⟨e | _, c'⟩
      · exact connected
      · refine Still.coherent ?_ connected
        dsimp only
        rw [sendSubscription_apply]
        rcases w.send (.subscribe kind xs) c'.world with ⟨e | _, s⟩ <;>
          exact ⟨rfl, rfl, rfl, ⟨rfl, rfl⟩, rfl⟩
  · rw [if_neg ha]
    exact h

theorem act_coherent (action : Action) {c : Client τ} (h : Coherent c) :
    Coherent (act w action c).2 := by
  have still (s : Still c (act w action c).2) : Coherent (act w action c).2 := s.coherent h
  have along {m : Op τ Answer} (walks : Walks (LineStep w) (fun _ => True) m fun _ _ => True) :
      Coherent (m c).2 := walks.coherent trivial h
  have answered {α : Type} {m : Op τ α} {f : α → Answer} {Q : α → Client τ → Prop}
      (walks : Walks (LineStep w) (fun _ => True) m Q) :
      Walks (LineStep w) (fun _ => True) (m >>= fun a => pure (f a)) fun _ _ => True :=
    walks.bind fun _ => .pure fun _ _ => trivial
  cases action with
  | receive text =>
    apply still
    show Still c (receive text c).2
    unfold receive
    split
    · refine ⟨rfl, rfl, rfl, Dispatcher.sameGauges_dispatch _ _ _, ?_⟩
      exact congrArg Registry.symbols (Dispatcher.dispatch_registry _ _ _)
    · exact ⟨rfl, rfl, rfl, ⟨rfl, rfl⟩, rfl⟩
  | elapse d => exact along (answered ((sleep_idles w d).mono fun _ _ s => .link (.idle s)))
  | createSession kind =>
    apply still
    show Still c (createSession w kind c).2
    rw [createSession_apply]
    cases c.sessions <;> exact ⟨rfl, rfl, rfl, ⟨rfl, rfl⟩, rfl⟩
  | setSession => exact still ⟨rfl, rfl, rfl, ⟨rfl, rfl⟩, rfl⟩
  | connect => exact along (answered ((connect_walks w).mono fun _ _ => .link))
  | disconnect => exact teardown_coherent h
  | reconnect =>
    have walks : Walks (LineStep w) (fun _ => True) (reconnect w) fun _ _ => True :=
      .get fun _ _ => (reconnectAfter_lines w _).weaken (fun _ _ => trivial) fun _ _ h => h
    exact along (answered walks)
  | reconnectWithBackoff cancellation rounds =>
    exact along (answered (reconnectWithBackoff_walks w (fun _ _ => .link) (fun _ _ _ h => h)
      (reconnectAfter_lines w) cancellation rounds))
  | subscribe kind session symbols handler => exact subscribe_coherent w kind session symbols handler h
  | addSymbols xs =>
    exact sendForMarketKinds_coherent w _ _
      (sampleSymbols_coherent ⟨h.settled, h.heartbeat, h.id, h.gauge, h.low⟩)
  | removeSymbols xs =>
    exact sendForMarketKinds_coherent w _ _
      (sampleSymbols_coherent ⟨h.settled, h.heartbeat, h.id, h.gauge, h.low⟩)
  | registerHandler => exact still ⟨rfl, rfl, rfl, ⟨rfl, rfl⟩, rfl⟩
  | filterSymbols => exact still ⟨rfl, rfl, rfl, ⟨rfl, rfl⟩, rfl⟩
  | filterExchanges => exact still ⟨rfl, rfl, rfl, ⟨rfl, rfl⟩, rfl⟩
  | clearFilters => exact still ⟨rfl, rfl, rfl, ⟨rfl, rfl⟩, rfl⟩
  | configure => exact still ⟨rfl, rfl, rfl, ⟨rfl, rfl⟩, rfl⟩
  | listen => exact still ⟨rfl, rfl, rfl, ⟨rfl, rfl⟩, rfl⟩
  | resetStatistics => exact still ⟨rfl, rfl, rfl, ⟨rfl, rfl⟩, rfl⟩

theorem create_coherent (world : τ) (settings : StreamSettings) (sessions : Option SessionSettings)
    (token : String) (runtime : Runtime) :
    Coherent (create world settings sessions token runtime) := by
  refine ⟨⟨.inr rfl, ?_, ?_, ?_, fun _ => .inl rfl⟩, nofun, fun _ => rfl⟩
  · exact iff_of_false nofun nofun
  · exact iff_of_false nofun nofun
  · exact iff_of_false nofun nofun

/-- After every run the client is coherent: connected or disconnected and never in between, with its
heartbeat, its identifier and both gauges in agreement. -/
theorem coherent_after (world : τ) (settings : StreamSettings) (sessions : Option SessionSettings)
    (token : String) (runtime : Runtime) (actions : List Action) :
    Coherent (after w actions (create world settings sessions token runtime)) := by
  have run : ∀ (c : Client τ), Coherent c → Coherent (after w actions c) := by
    induction actions with
    | nil => exact fun c h => h
    | cons action rest ih => exact fun c h => ih _ (act_coherent w action h)
  exact run _ (create_coherent world settings sessions token runtime)

end Client

end MarketFeed
