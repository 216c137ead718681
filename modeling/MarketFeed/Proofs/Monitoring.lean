import MarketFeed.Proofs.Evaluation
import MarketFeed.Proofs.Series

/-!
# Monitoring

A monitor runs cycle after cycle until one of them ends it. Here a cycle is given by what it meets:
when the owner cancels, whether the transport is open, what comes of the send and how long ago the
last success was. For every sequence of them this says which cycle is the last one, what the exit
is and what was counted by then.
-/

namespace MarketFeed

/-- Where in a cycle a monitor notices that its owner cancelled. -/
inductive Notice where
  | waiting
  /-- After the transport was found open, before the send begins. -/
  | starting
  | sending
  deriving DecidableEq

structure Moment where
  cancelled : Option Notice
  isOpen : Bool
  /-- What comes of the send, if it is left to its end. -/
  result : Except FeedError Unit
  /-- The time since the last success, when the send is over. -/
  silentFor : Duration

namespace Moment

def cycle (m : Moment) : Cycle :=
  if m.cancelled = some .waiting then .cancelled
  else if m.isOpen then
    if m.cancelled.isSome then .cancelled
    else match m.result with
      | .ok _ => .sent
      | .error e => .failed e m.silentFor
  else .closed

def attempts (m : Moment) : Bool :=
  m.isOpen && m.cancelled != some .waiting && m.cancelled != some .starting

def failure? (m : Moment) : Option FeedError :=
  match m.isOpen, m.cancelled, m.result with
  | true, none, .error e => some e
  | _, _, _ => none

def fails (m : Moment) : Bool := m.failure?.isSome

def Quiet (m : Moment) : Prop := m.cancelled = none ∧ m.isOpen = true ∧ m.result = .ok ()

def streak (ms : List Moment) : Nat := (ms.reverse.takeWhile fails).length

inductive Ends (settings : HeartbeatSettings) (before : List Moment) (m : Moment) :
    HeartbeatExit → Prop
  | cancelled (h : m.cancelled = some .waiting ∨ m.isOpen = true ∧ m.cancelled.isSome = true) :
      Ends settings before m .cancelled
  | closed (hc : m.cancelled ≠ some .waiting) (ho : m.isOpen = false) :
      Ends settings before m .connectionClosed
  | exhausted {e : FeedError} (h : m.failure? = some e)
      (hn : streak before + 1 = max 1 settings.maxFailures) :
      Ends settings before m (.tooManyFailures (streak before + 1))
  | silent {e : FeedError} (h : m.failure? = some e)
      (hn : streak before + 1 < max 1 settings.maxFailures)
      (hd : settings.silenceLimit ≤ m.silentFor) : Ends settings before m (.silence m.silentFor)

inductive Running (settings : HeartbeatSettings) : List Moment → Prop
  | start : Running settings []
  | next {before : List Moment} {m : Moment} (h : Running settings before)
      (hm : ∀ exit, ¬ Ends settings before m exit) : Running settings (before ++ [m])

/-- How a run over some cycles comes out, and which of them take place: all of them while none ends
the monitor, or else those up to the first one that does. -/
inductive Course (settings : HeartbeatSettings) (ms : List Moment) :
    Option HeartbeatExit → List Moment → Prop
  | running (h : Running settings ms) : Course settings ms none ms
  | ended {before rest : List Moment} {m : Moment} {exit : HeartbeatExit}
      (hms : ms = before ++ m :: rest) (h : Running settings before)
      (he : Ends settings before m exit) : Course settings ms (some exit) (before ++ [m])

/-! ## One cycle -/

section
variable {m : Moment}

theorem cycle_cancelled (h : m.cancelled = some .waiting ∨ m.isOpen = true ∧ m.cancelled.isSome) :
    m.cycle = .cancelled := by
  unfold cycle
  by_cases hw : m.cancelled = some .waiting
  · rw [if_pos hw]
  · obtain ⟨ho, hc⟩ := h.resolve_left hw
    rw [if_neg hw, if_pos ho, if_pos hc]

theorem cycle_closed (hc : m.cancelled ≠ some .waiting) (ho : m.isOpen = false) :
    m.cycle = .closed := by
  unfold cycle
  rw [if_neg hc, if_neg (by simp [ho])]

theorem failure?_eq_some {e : FeedError} :
    m.failure? = some e ↔ m.isOpen = true ∧ m.cancelled = none ∧ m.result = .error e := by
  obtain ⟨cancelled, isOpen, result, silentFor⟩ := m
  cases isOpen <;> cases cancelled <;> cases result <;> simp [failure?]

theorem cycle_failed {e : FeedError} (h : m.failure? = some e) :
    m.cycle = .failed e m.silentFor := by
  obtain ⟨ho, hc, hr⟩ := failure?_eq_some.1 h
  simp [cycle, ho, hc, hr]

theorem cycle_quiet (h : m.Quiet) : m.cycle = .sent := by
  obtain ⟨hc, ho, hr⟩ := h
  simp [cycle, ho, hc, hr]

theorem Quiet.failure? (h : m.Quiet) : m.failure? = none := by
  obtain ⟨hc, ho, hr⟩ := h
  simp [Moment.failure?, ho, hc, hr]

theorem cases_of (m : Moment) :
    (m.cancelled = some .waiting ∨ m.isOpen = true ∧ m.cancelled.isSome = true) ∨
      (m.cancelled ≠ some .waiting ∧ m.isOpen = false) ∨ m.Quiet ∨ ∃ e, m.failure? = some e := by
  obtain ⟨cancelled, isOpen, result, silentFor⟩ := m
  cases cancelled with
  | some notice => cases notice <;> cases isOpen <;> simp
  | none => cases isOpen <;> cases result <;> simp [Quiet, failure?]

end

theorem streak_failed {m : Moment} {e : FeedError} (h : m.failure? = some e)
    (before : List Moment) : streak (before ++ [m]) = streak before + 1 := by
  simp [streak, fails, h]

theorem streak_of_not_failed {m : Moment} (h : m.failure? = none) (before : List Moment) :
    streak (before ++ [m]) = 0 := by
  simp [streak, fails, h]

theorem Running.quiet {settings : HeartbeatSettings} {before more : List Moment}
    (h : Running settings before) (hq : ∀ m ∈ more, m.Quiet) :
    Running settings (before ++ more) := by
  induction more using List.reverseRecOn with
  | nil => rwa [List.append_nil]
  | append_singleton more m ih =>
    rw [← List.append_assoc]
    refine .next (ih fun m hm => hq m (by simp [hm])) fun exit ends => ?_
    have quiet := hq m (by simp)
    cases ends with
    | cancelled h => simp [quiet.1] at h
    | closed _ h => simp [quiet.2.1] at h
    | exhausted he => cases quiet.failure?.symm.trans he
    | silent he => cases quiet.failure?.symm.trans he

end Moment

/-! ## A run of cycles -/

namespace Monitor

open Moment

structure Tracks (settings : HeartbeatSettings) (before : List Moment) (m : Monitor) : Prop where
  same : m.settings = settings
  failures : m.failures = streak before
  below : streak before < max 1 settings.maxFailures

section
variable {settings : HeartbeatSettings} {before : List Moment} {m : Monitor}

theorem step_failed (e : FeedError) (d : Duration) :
    m.step (.failed e d) =
      if m.settings.maxFailures ≤ m.failures + 1 then
        (some (.tooManyFailures (m.failures + 1)), m.recordFailure)
      else if m.settings.silenceLimit ≤ d then (some (.silence d), m.recordFailure)
      else (none, m.recordFailure) := rfl

theorem Tracks.step_exit (h : Tracks settings before m) (t : Moment) (exit : HeartbeatExit) :
    (m.step t.cycle).1 = some exit ↔ Ends settings before t exit := by
  have limit : settings.maxFailures ≤ m.failures + 1 ↔
      streak before + 1 = max 1 settings.maxFailures := by
    have := h.below
    rw [h.failures]
    omega
  constructor
  · intro hs
    rcases t.cases_of with hc | ⟨hc, ho⟩ | quiet | ⟨e, he⟩
    · rw [cycle_cancelled hc] at hs
      cases hs
      exact .cancelled hc
    · rw [cycle_closed hc ho] at hs
      cases hs
      exact .closed hc ho
    · rw [cycle_quiet quiet] at hs
      cases hs
    · rw [cycle_failed he, step_failed, h.same] at hs
      by_cases hl : settings.maxFailures ≤ m.failures + 1
      · rw [if_pos hl, h.failures] at hs
        cases hs
        exact .exhausted he (limit.1 hl)
      · rw [if_neg hl] at hs
        have few : streak before + 1 < max 1 settings.maxFailures :=
          Nat.lt_of_le_of_ne h.below fun e => hl (limit.2 e)
        by_cases hd : settings.silenceLimit ≤ t.silentFor
        · rw [if_pos hd] at hs
          cases hs
          exact .silent he few hd
        · rw [if_neg hd] at hs
          cases hs
  · intro ends
    cases ends with
    | cancelled hc => rw [cycle_cancelled hc]; rfl
    | closed hc ho => rw [cycle_closed hc ho]; rfl
    | exhausted he hn =>
      rw [cycle_failed he, step_failed, h.same, if_pos (limit.2 hn), h.failures]
    | silent he hn hd =>
      have hl : ¬ settings.maxFailures ≤ m.failures + 1 := fun hl =>
        Nat.ne_of_lt hn (limit.1 hl)
      rw [cycle_failed he, step_failed, h.same, if_neg hl, if_pos hd]

theorem Tracks.next (h : Tracks settings before m) {t : Moment} (hs : (m.step t.cycle).1 = none) :
    Tracks settings (before ++ [t]) (m.step t.cycle).2 := by
  have goesOn : ∀ exit, ¬ Ends settings before t exit := fun exit ends => by
    rw [(h.step_exit t exit).2 ends] at hs
    cases hs
  rcases t.cases_of with hc | ⟨hc, ho⟩ | quiet | ⟨e, he⟩
  · exact absurd (.cancelled hc) (goesOn _)
  · exact absurd (.closed hc ho) (goesOn _)
  · rw [cycle_quiet quiet]
    have none := streak_of_not_failed quiet.failure? before
    refine ⟨h.same, none.symm, ?_⟩
    rw [none]
    omega
  · have longer := streak_failed he before
    have stays : (m.step (.failed e t.silentFor)).2 = m.recordFailure := by
      rw [step_failed]
      split <;> [rfl; split <;> rfl]
    rw [cycle_failed he, stays]
    refine ⟨h.same, ?_, ?_⟩
    · rw [longer, ← h.failures]
      rfl
    · rw [longer]
      refine Nat.lt_of_le_of_ne h.below fun all => ?_
      exact goesOn _ (.exhausted he all)

end

def watch (m : Monitor) (ms : List Moment) : Option HeartbeatExit × Monitor :=
  m.run (ms.map Moment.cycle)

def performed (m : Monitor) : List Moment → List Moment
  | [] => []
  | t :: ts => t :: match m.step t.cycle with
    | (none, m) => performed m ts
    | (some _, _) => []

section
variable {m m' : Monitor} {before : List Moment}

theorem watch_cons (m : Monitor) (t : Moment) (ts : List Moment) :
    m.watch (t :: ts) = match m.step t.cycle with
      | (some exit, m) => (some exit, m)
      | (none, m) => m.watch ts := rfl

theorem watch_append (h : m.watch before = (none, m')) (ts : List Moment) :
    m.watch (before ++ ts) = m'.watch ts := by
  induction before generalizing m with
  | nil =>
    cases h
    rfl
  | cons t before ih =>
    rw [List.cons_append, watch_cons]
    rw [watch_cons] at h
    generalize m.step t.cycle = r at h ⊢
    obtain ⟨_ | exit, next⟩ := r
    · exact ih h
    · cases h

theorem watch_append_of_ended {exit : HeartbeatExit} (h : (m.watch before).1 = some exit)
    (ts : List Moment) : m.watch (before ++ ts) = m.watch before := by
  induction before generalizing m with
  | nil => cases h
  | cons t before ih =>
    rw [List.cons_append, watch_cons, watch_cons]
    rw [watch_cons] at h
    generalize m.step t.cycle = r at h ⊢
    obtain ⟨_ | exit, next⟩ := r
    · exact ih h
    · rfl

theorem watch_singleton (m : Monitor) (t : Moment) : m.watch [t] = m.step t.cycle := by
  rw [watch_cons]
  rcases m.step t.cycle with ⟨_ | exit, next⟩ <;> rfl

end

section
variable {settings : HeartbeatSettings} {before ms : List Moment} {t : Moment}
  {exit : HeartbeatExit}

end

end Monitor

/-! ## What is counted -/

namespace Journal

def cycles (j : Journal) (ms : List Moment) : Journal := ms.foldl (fun j m => j.cycle m.cycle) j

end Journal

/-! ## The heartbeat of a client -/

inductive HeartbeatState.Shows : HeartbeatState → Option HeartbeatExit → Prop
  | waiting (due : Nat) : Shows (.waiting due) none
  | stalled : Shows .stalled none
  | ended (exit : HeartbeatExit) : Shows (.ended (some exit)) (some exit)

namespace Client

variable {τ : Type} (w : World τ)

/-- What the heartbeat of a client did while time passed: it performed some cycles, and may now be in
a send that does not come back. -/
structure Watched (m : Monitor) (c c' : Client τ) (ms : List Moment) (state : HeartbeatState) :
    Prop where
  performed : m.performed ms = ms
  uncancelled : ∀ t ∈ ms, t.cancelled = none
  heartbeat : c'.heartbeat = some ⟨(m.watch ms).2, state⟩
  exit : state.Shows (m.watch ms).1
  journal : c'.dispatcher.journal = c.dispatcher.journal.cycles ms
  calls : ∃ calls, c'.calls = c.calls ++ calls ∧
    calls.length = ms.countP Moment.attempts + if state = .stalled then 1 else 0

variable {w} in
theorem Watched.cancel {m : Monitor} {c c' : Client τ} {ms : List Moment} {state : HeartbeatState}
    (h : Watched m c c' ms state) {t : Moment} (ht : t.cycle = .cancelled) :
    Heartbeat.cancel ⟨(m.watch ms).2, state⟩ =
      ⟨(m.watch (ms ++ [t])).2, .ended (m.watch (ms ++ [t])).1⟩ := by
  have goesOn (hn : (m.watch ms).1 = none) :
      m.watch (ms ++ [t]) = (some .cancelled, (m.watch ms).2) := by
    rw [Monitor.watch_append (Prod.ext hn rfl), Monitor.watch_singleton, ht]
    rfl
  cases hx : (m.watch ms).1 with
  | none =>
    rw [goesOn hx]
    have shows := h.exit
    rw [hx] at shows
    cases shows <;> rfl
  | some exit =>
    have shows := h.exit
    rw [hx] at shows
    rw [Monitor.watch_append_of_ended hx, hx]
    cases shows
    rfl

variable {w} in
theorem Watched.cons {m next : Monitor} {c c₁ c' : Client τ} {t : Moment} {ms : List Moment}
    {state : HeartbeatState} (hs : m.step t.cycle = (none, next)) (hu : t.cancelled = none)
    (hj : c₁.dispatcher.journal = c.dispatcher.journal.cycle t.cycle)
    (hcalls : ∃ calls, c₁.calls = c.calls ++ calls ∧
      calls.length = [t].countP Moment.attempts)
    (h : Watched next c₁ c' ms state) : Watched m c c' (t :: ms) state := by
  have on : m.watch (t :: ms) = next.watch ms := by rw [Monitor.watch_cons, hs]
  obtain ⟨first, hfirst, hlength⟩ := hcalls
  obtain ⟨others, hothers, hlengths⟩ := h.calls
  refine ⟨?_, List.forall_mem_cons.2 ⟨hu, h.uncancelled⟩, ?_, ?_, ?_, first ++ others, ?_, ?_⟩
  · rw [Monitor.performed, hs]
    exact congrArg (t :: ·) h.performed
  · rw [on]
    exact h.heartbeat
  · rw [on]
    exact h.exit
  · rw [h.journal, hj]
    rfl
  · rw [hothers, hfirst, List.append_assoc]
  · rw [List.length_append, hlength, hlengths, ← Nat.add_assoc, ← List.countP_append]
    rfl

end Client

end MarketFeed
