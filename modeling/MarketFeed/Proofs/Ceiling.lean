import Mathlib
import MarketFeed.Proofs.Overflow
import MarketFeed.Proofs.Retries

/-!
# The ceiling of the delays before retries

Seconds that are a double come back from a duration as the same double, so that doubling up to the
ceiling stays below it and never goes back. The first delay is handed out without regard to the
ceiling, and the bound on all of them is a condition on the settings.
-/

namespace MarketFeed

open Binary64

namespace Duration

/-! ## Durations that are the same in seconds -/

def nearestNanos (u : Nat) : Nat := roundHalfEven (u * nanosPerSecond) unitsPerOne

theorem nearestNanos_mono {u v : Nat} (h : u ≤ v) : nearestNanos u ≤ nearestNanos v :=
  roundHalfEven_mono unitsPerOne_pos (Nat.mul_le_mul_right _ h)

theorem nearestNanos_mul (s : Nat) : nearestNanos (s * unitsPerOne) = s * nanosPerSecond := by
  unfold nearestNanos
  rw [Nat.mul_right_comm]
  exact roundHalfEven_mul _ unitsPerOne_pos

theorem nanos_of_ofSecondsFloat? {u : Nat} {d : Duration}
    (h : ofSecondsFloat? (.finite false u) = some d) : d.nanos = nearestNanos u := by
  rw [ofSecondsFloat?_finite] at h
  exact Backoff.nanos_of_ofNanos? h

/-- Below `2 ^ 23` seconds nanoseconds are farther apart than doubles. -/
theorem nearestNanos_units {d : Duration} (h : d.seconds < 2 ^ 23) :
    nearestNanos d.units = d.nanos := by
  obtain ⟨above, below⟩ := units_error (by decide) h
  have unit := unitsPerOne_pos
  unfold nanosPerSecond at *
  apply roundHalfEven_eq
  · unfold nanosPerSecond
    omega
  · unfold nanosPerSecond
    omega

theorem units_of_nearestNanos_of_whole {u : Nat} (hu : IsMagnitude u)
    (long : 2 ^ 53 * unitsPerOne ≤ u) {d : Duration} (h : d.nanos = nearestNanos u) :
    d.units = u := by
  obtain ⟨s, rfl⟩ : unitsPerOne ∣ u := by
    obtain ⟨k, hk⟩ : ∃ k, unitsPerOne = 2 ^ k := ⟨_, unitsPerOne_eq rfl⟩
    rw [hk, Nat.mul_comm, ← Nat.pow_add] at long
    rw [hk]
    exact (Nat.pow_dvd_pow 2 (Nat.le_succ k)).trans (hu.dvd long)
  rw [Nat.mul_comm unitsPerOne s] at hu long h ⊢
  rw [nearestNanos_mul] at h
  have seconds : d.seconds = s := by
    unfold Duration.seconds
    rw [h, Nat.mul_div_cancel _ nanosPerSecond_pos]
  have large : 2 ^ 53 ≤ d.seconds := by
    rw [seconds]
    exact Nat.le_of_mul_le_mul_right long unitsPerOne_pos
  have exact := hu.roundUnits_eq Nat.one_pos
  rw [Nat.mul_one] at exact
  rw [units_of_large large, wholeUnits, seconds, exact]

/-- Seconds that are rounded to nanoseconds and back, part by part, are missed by less than
`2 ^ -29` of a second. -/
theorem apart_of_errors {p one u v w r m n : Nat} (hp : 0 < p) (spacing : one = 2 ^ 29 * p)
    (rounded : Within n (u * nanosPerSecond) one)
    (rest : Within (2 ^ 53 * (r * nanosPerSecond)) (2 ^ 53 * m) (nanosPerSecond * one))
    (parts : n = w * nanosPerSecond + m)
    (near : ((v : Int) - (w + r : Nat)).natAbs ≤ ((u : Int) - (w + r : Nat)).natAbs) :
    v < u + p ∧ u < v + p := by
  subst spacing
  have sum : Within (u * nanosPerSecond) ((w + r) * nanosPerSecond) (2 ^ 29 * p + 2 ^ 8 * p) := by
    unfold Within nanosPerSecond at *
    omega
  have half : Within u (w + r) (p - 1) := by
    unfold Within nanosPerSecond at *
    omega
  generalize w + r = t at *
  unfold Within at *
  omega

/-- From `2 ^ 23` seconds on doubles are farther apart than nanoseconds. -/
theorem units_of_nearestNanos {u : Nat} (hu : IsMagnitude u) (long : 2 ^ 23 * unitsPerOne ≤ u)
    {d : Duration} (h : d.nanos = nearestNanos u) : d.units = u := by
  by_cases whole : 2 ^ 53 * unitsPerOne ≤ u
  · exact units_of_nearestNanos_of_whole hu whole h
  have least := nearestNanos_mono long
  have most := nearestNanos_mono (Nat.le_of_not_le whole)
  rw [nearestNanos_mul, ← h] at least most
  have exact : d.wholeUnits = d.seconds * unitsPerOne := by
    apply wholeUnits_eq
    have := Nat.div_le_div_right (c := nanosPerSecond) most
    rwa [Nat.mul_div_cancel _ nanosPerSecond_pos] at this
  have rounded : Within (d.nanos * unitsPerOne) (u * nanosPerSecond) unitsPerOne := by
    rw [h]
    exact roundHalfEven_within _ unitsPerOne_pos
  have rest := d.restUnits_error
  have parts : d.nanos * unitsPerOne =
      d.seconds * unitsPerOne * nanosPerSecond + d.subsecond * unitsPerOne := by
    rw [← d.seconds_add_subsecond]
    ring
  have near := roundUnits_nearest (n := d.wholeUnits + d.restUnits) Nat.one_pos hu
  change (((d.units * 1 : Nat) : Int) - _).natAbs ≤ _ at near
  have reached : 2 ^ 23 * unitsPerOne ≤ d.units :=
    (two_pow_le_units_of_le (le_seconds_iff.2 least)).1
  -- Both are multiples of this spacing, which is more than they can be apart.
  obtain ⟨k, hk⟩ := exists_unitsPerOne_eq (j := 30) (by decide)
  have spacing : unitsPerOne = 2 ^ 29 * 2 ^ (k + 1) := by rw [hk, Nat.pow_succ 2 k]; ring
  have power : 2 ^ 23 * unitsPerOne = 2 ^ (k + 53) := by rw [hk, Nat.pow_add]; ring
  obtain ⟨a, ha⟩ := hu.dvd (power ▸ long)
  obtain ⟨b, hb⟩ := d.isMagnitude_units.dvd (power ▸ reached)
  rw [exact, Nat.mul_one, Nat.mul_one] at near
  have less := apart_of_errors (Nat.two_pow_pos (k + 1)) spacing rounded rest parts near
  rw [ha, hb, ← Nat.mul_succ, ← Nat.mul_succ] at less
  have le := Nat.lt_of_mul_lt_mul_left less.1
  have ge := Nat.lt_of_mul_lt_mul_left less.2
  rw [ha, hb, Nat.le_antisymm (Nat.le_of_lt_succ le) (Nat.le_of_lt_succ ge)]

theorem units_again {d e : Duration} (h : e.nanos = nearestNanos d.units) : e.units = d.units := by
  by_cases short : d.seconds < 2 ^ 23
  · rw [Duration.ext (h.trans (nearestNanos_units short))]
  · refine units_of_nearestNanos d.isMagnitude_units ?_ h
    exact (two_pow_le_units_of_le (Nat.le_of_not_lt short)).1

/-! ## Order in seconds -/

theorem exists_nanos {n : Nat} (h : n < durationLimit) : ∃ d : Duration, d.nanos = n :=
  ⟨⟨n, h⟩, rfl⟩

theorem units_le_of_le_nearestNanos {d e : Duration} (h : d.nanos ≤ nearestNanos e.units) :
    d.units ≤ e.units := by
  by_cases fits : nearestNanos e.units < durationLimit
  · obtain ⟨c, hc⟩ := exists_nanos fits
    exact (units_mono (e := c) (h.trans_eq hc.symm)).trans_eq (units_again hc)
  · have large : ofSecondsFloat? (.finite false e.units) = none := by
      rw [ofSecondsFloat?_finite, ofNanos?_eq_none_iff]
      exact Nat.le_of_not_lt fits
    exact d.units_le.trans ((ofSecondsFloat?_eq_none_iff e.isMagnitude_units).1 large)

theorem units_le_of_nearestNanos_le {d e : Duration} (h : nearestNanos d.units ≤ e.nanos) :
    d.units ≤ e.units := by
  obtain ⟨c, hc⟩ := exists_nanos (h.trans_lt e.nanos_lt)
  exact (units_again hc).ge.trans (units_mono (d := c) (hc.trans_le h))

/-- As far as seconds in doubles tell, a duration is not longer than another. -/
def NoLonger (d e : Duration) : Prop := d.toSeconds.le e.toSeconds = true

theorem noLonger_iff {d e : Duration} : d.NoLonger e ↔ d.units ≤ e.units := by
  unfold NoLonger
  rw [toSeconds_eq_units, toSeconds_eq_units]
  simp [Binary64.le, Binary64.lt, Binary64.eq, signedUnits]
  omega

theorem NoLonger.refl (d : Duration) : d.NoLonger d := noLonger_iff.2 le_rfl

theorem NoLonger.trans {c d e : Duration} (h : c.NoLonger d) (h' : d.NoLonger e) : c.NoLonger e :=
  noLonger_iff.2 ((noLonger_iff.1 h).trans (noLonger_iff.1 h'))

/-- Below `2 ^ 23` seconds, which are 97 days, seconds in doubles tell durations apart. -/
theorem noLonger_iff_le {d e : Duration} (h : e.seconds < 2 ^ 23) : d.NoLonger e ↔ d ≤ e := by
  rw [noLonger_iff]
  constructor
  · intro le
    have order := nearestNanos_mono le
    rw [nearestNanos_units h] at order
    by_cases short : d.seconds < 2 ^ 23
    · rwa [nearestNanos_units short] at order
    · have long := nearestNanos_mono (two_pow_le_units_of_le (Nat.le_of_not_lt short)).1
      rw [nearestNanos_mul] at long
      have under : ¬ 2 ^ 23 * nanosPerSecond ≤ e.nanos := mt le_seconds_iff.2 (by omega)
      omega
  · exact units_mono

end Duration

open Duration

/-! ## The delays handed out -/

def NextAttempt.delay? : NextAttempt → Option Duration
  | .after delay => some delay
  | _ => none

structure Climbs (ceiling : Duration) (ds : List Duration) : Prop where
  below : ∀ d ∈ ds, d.NoLonger ceiling
  ascending : ds.Pairwise NoLonger

namespace Backoff

variable {b : Backoff}

def handedOut (b : Backoff) (calls : Nat) : List Duration :=
  (b.answers calls).filterMap NextAttempt.delay?

theorem nanos_doubled {following : Duration} (h : b.doubled? = some following) :
    following.nanos = nearestNanos (Nat.min (b.delay.units * 2) b.ceiling.units) := by
  rw [doubled?_finite] at h
  exact nanos_of_ofSecondsFloat? h

theorem doubled_noLonger {following : Duration} (h : b.doubled? = some following) :
    following.NoLonger b.ceiling := by
  apply noLonger_iff.2 (units_le_of_le_nearestNanos _)
  rw [nanos_doubled h]
  exact nearestNanos_mono (Nat.min_le_right ..)

theorem noLonger_doubled {following : Duration} (h : b.doubled? = some following)
    (capped : b.delay.NoLonger b.ceiling) : b.delay.NoLonger following := by
  apply noLonger_iff.2 (units_le_of_nearestNanos_le _)
  rw [nanos_doubled h]
  have twice : b.delay.units ≤ b.delay.units * 2 := by omega
  exact nearestNanos_mono (Nat.le_min.2 ⟨twice, noLonger_iff.1 capped⟩)

theorem noLonger_of_doubled?_eq_none (h : b.doubled? = none) (d : Duration) :
    d.NoLonger b.ceiling := by
  rw [noLonger_iff, units_of_nears (b.doubled?_eq_none_iff.1 h).1]
  exact d.units_le

inductive Steps (b : Backoff) : NextAttempt → Backoff → Prop
  | exhausted (h : b.left = 0) : Steps b .exhausted b
  | outOfRange (h : b.doubled? = none) : Steps b .outOfRange { b with left := b.left - 1 }
  | after {following : Duration} (h : b.doubled? = some following) :
      Steps b (.after b.delay) { b with delay := following, left := b.left - 1 }

theorem next_steps (b : Backoff) : b.Steps b.next.1 b.next.2 := by
  by_cases left : b.left = 0
  · rw [next_of_left_eq_zero left]
    exact .exhausted left
  · cases h : b.doubled? with
    | none =>
      rw [next_of_none left h]
      exact .outOfRange h
    | some following =>
      rw [next_of_some left h]
      exact .after h

theorem Steps.keeps {answer : NextAttempt} {b' : Backoff} (h : b.Steps answer b')
    (capped : b.delay.NoLonger b.ceiling) :
    b'.ceiling = b.ceiling ∧ b.delay.NoLonger b'.delay ∧ b'.delay.NoLonger b'.ceiling := by
  cases h with
  | exhausted => exact ⟨rfl, NoLonger.refl b.delay, capped⟩
  | outOfRange => exact ⟨rfl, NoLonger.refl b.delay, capped⟩
  | after h =>
    have above := noLonger_doubled h capped
    have below := doubled_noLonger h
    exact ⟨rfl, above, below⟩

theorem handedOut_succ (b : Backoff) (calls : Nat) :
    b.handedOut (calls + 1) = b.next.1.delay?.toList ++ b.next.2.handedOut calls := by
  unfold handedOut
  rw [answers, List.filterMap_cons]
  cases b.next.1.delay? <;> rfl

theorem Steps.delay?_eq {answer : NextAttempt} {b' : Backoff} (h : b.Steps answer b') :
    answer.delay? = none ∨ answer.delay? = some b.delay := by
  cases h with
  | exhausted => exact .inl rfl
  | outOfRange => exact .inl rfl
  | after h => exact .inr rfl

theorem mem_handedOut {calls : Nat} {d : Duration} (capped : b.delay.NoLonger b.ceiling)
    (h : d ∈ b.handedOut calls) : b.delay.NoLonger d ∧ d.NoLonger b.ceiling := by
  induction calls generalizing b with
  | zero => cases h
  | succ calls ih =>
    obtain ⟨ceiling, above, capped'⟩ := b.next_steps.keeps capped
    rw [handedOut_succ, List.mem_append] at h
    obtain now | later := h
    · obtain none | some := b.next_steps.delay?_eq
      · simp [none] at now
      · rw [some, Option.mem_toList, Option.some_inj] at now
        rw [← now]
        exact ⟨NoLonger.refl b.delay, capped⟩
    · obtain ⟨least, most⟩ := ih capped' later
      exact ⟨above.trans least, ceiling ▸ most⟩

theorem climbs_handedOut (capped : b.delay.NoLonger b.ceiling) (calls : Nat) :
    Climbs b.ceiling (b.handedOut calls) := by
  refine ⟨fun d hd => (mem_handedOut capped hd).2, ?_⟩
  induction calls generalizing b with
  | zero => exact .nil
  | succ calls ih =>
    obtain ⟨-, above, capped'⟩ := b.next_steps.keeps capped
    rw [handedOut_succ]
    obtain none | some := b.next_steps.delay?_eq
    · rw [none]
      exact ih capped'
    · rw [some]
      exact List.pairwise_cons.2
        ⟨fun d hd => above.trans (mem_handedOut capped' hd).1, ih capped'⟩

theorem first_handedOut (left : b.left ≠ 0) :
    b.doubled? = none ∨ b.handedOut 1 = [b.delay] := by
  cases h : b.doubled? with
  | none => exact .inl rfl
  | some following =>
    right
    rw [handedOut_succ, next_of_some left h]
    rfl

theorem handedOut_of_left_eq_zero (h : b.left = 0) (calls : Nat) : b.handedOut calls = [] := by
  induction calls with
  | zero => rfl
  | succ calls ih =>
    rw [handedOut_succ, next_of_left_eq_zero h, ih]
    rfl

theorem climbs_iff (b : Backoff) : (∀ calls, Climbs b.ceiling (b.handedOut calls)) ↔
    b.left = 0 ∨ b.delay.NoLonger b.ceiling := by
  constructor
  · intro climbs
    by_cases left : b.left = 0
    · exact .inl left
    · right
      obtain none | first := first_handedOut left
      · exact noLonger_of_doubled?_eq_none none b.delay
      · apply (climbs 1).below
        rw [first]
        exact List.mem_singleton_self b.delay
  · rintro (left | capped) calls
    · rw [handedOut_of_left_eq_zero left]
      exact ⟨nofun, .nil⟩
    · exact climbs_handedOut capped calls

end Backoff

/-! ## Waits -/

namespace Attempted

def Asks (a : Attempted) (d : Duration) : Prop :=
  ∃ r text seconds, a = .ok r ∧ r.status = 429 ∧ r.header? "retry-after" = some text ∧
    Digits.boundedNat? (2 ^ 64 - 1) (trim text.toList) = some seconds ∧
    d.nanos = seconds * nanosPerSecond

theorem Pause.eq_or_asks {delay d : Duration} {a : Attempted} (h : Pause delay a d) :
    d = delay ∨ a.Asks d := by
  cases h with
  | asked hr ht hs hd => exact .inr ⟨_, _, _, rfl, hr, ht, hs, hd⟩
  | scheduled => exact .inl rfl

end Attempted

namespace Course

variable (attempt : Nat → Attempted) {n : Nat} {b : Backoff} (last : Option Response)

theorem run_outOfRange (h : (attempt n).isFinal = false) {b' : Backoff}
    (hb : b.next = (.outOfRange, b')) :
    run attempt n b last = ⟨[.token, .attempt (attempt n)], .outOfRange⟩ := by
  rw [run]
  simp only [h, Bool.false_eq_true, if_false]
  split <;> rename_i hb'
  · cases hb.symm.trans hb'
  · rfl
  · cases hb.symm.trans hb'

theorem waits_run_cases : (run attempt n b last).waits = [] ∨
    ∃ b', b.next = (.after b.delay, b') ∧ (run attempt n b last).waits =
      (attempt n).wait b.delay :: (run attempt (n + 1) b' ((attempt n).latest last)).waits := by
  by_cases final : (attempt n).isFinal = true
  · rw [run_final attempt last final]
    exact .inl rfl
  have unsettled : (attempt n).isFinal = false := by simpa using final
  by_cases left : b.left = 0
  · rw [run_exhausted attempt last unsettled left]
    exact .inl rfl
  cases h : b.doubled? with
  | none =>
    rw [run_outOfRange attempt last unsettled (Backoff.next_of_none left h)]
    exact .inl rfl
  | some following =>
    have next := Backoff.next_of_some left h
    rw [run_after attempt last unsettled next]
    exact .inr ⟨_, next, rfl⟩

/-- Where the first delay is below the ceiling, every wait is, or is what an answer asks for. -/
theorem waits_run {i : Nat} {d : Duration} (capped : b.delay.NoLonger b.ceiling)
    (h : (run attempt n b last).waits[i]? = some d) :
    d.NoLonger b.ceiling ∨ (attempt (n + i)).Asks d := by
  induction i generalizing n b last with
  | zero =>
    obtain none | ⟨b', -, waits⟩ := waits_run_cases attempt (n := n) (b := b) last
    · simp [none] at h
    · rw [waits, List.getElem?_cons_zero, Option.some_inj] at h
      subst h
      obtain same | asks := (Attempted.wait_pause (attempt n) b.delay).eq_or_asks
      · rw [same]
        exact .inl capped
      · exact .inr asks
  | succ i ih =>
    obtain none | ⟨b', next, waits⟩ := waits_run_cases attempt (n := n) (b := b) last
    · simp [none] at h
    · rw [waits, List.getElem?_cons_succ] at h
      have steps := b.next_steps
      rw [next] at steps
      obtain ⟨ceiling, -, capped'⟩ := steps.keeps capped
      have later : n + (i + 1) = n + 1 + i := by omega
      rw [later, ← ceiling]
      exact ih _ capped' h

end Course

namespace RestClient

theorem outcome_error (c : RestClient) (detail : String) (r : Request) (n : Nat) :
    ∃ e, c.outcome (fun _ _ => .error detail) r n = .error e := by
  unfold outcome
  cases c.message? r with
  | some m => exact ⟨detail, rfl⟩
  | none => exact ⟨"builder error", rfl⟩

theorem waits_error {c : RestClient} {following : Duration} (left : c.settings.maxRetries ≠ 0)
    (h : (Backoff.ofSettings c.settings).doubled? = some following) (detail : String)
    (r : Request) :
    (c.perform (fun _ _ => .error detail) r).waits[0]? = some c.settings.initialBackoff := by
  obtain ⟨e, he⟩ := c.outcome_error detail r 0
  have unsettled : (c.outcome (fun _ _ => .error detail) r 0).isFinal = false := by
    rw [he]
    rfl
  have performed : c.perform (fun _ _ => .error detail) r = _ :=
    Course.run_after _ none unsettled (Backoff.next_of_some left h)
  rw [performed, he]
  rfl

theorem waits_perform_iff (c : RestClient) :
    (∀ deliver r i d, (c.perform deliver r).waits[i]? = some d →
      d.NoLonger c.settings.maxBackoff ∨ (c.outcome deliver r i).Asks d) ↔
    c.settings.maxRetries = 0 ∨ c.settings.initialBackoff.NoLonger c.settings.maxBackoff := by
  constructor
  · intro bounded
    by_cases left : c.settings.maxRetries = 0
    · exact .inl left
    right
    cases h : (Backoff.ofSettings c.settings).doubled? with
    | none => exact Backoff.noLonger_of_doubled?_eq_none h c.settings.initialBackoff
    | some following =>
      let r : Request := { method := .get, path := "" }
      have first := waits_error left h "connection reset" r
      obtain capped | ⟨_, _, _, answered, -⟩ := bounded _ r 0 _ first
      · exact capped
      · obtain ⟨e, he⟩ := c.outcome_error "connection reset" r 0
        cases he.symm.trans answered
  · rintro (left | capped) deliver r i d h
    · have none : (c.perform deliver r).waits = [] := by
        obtain none | ⟨b', next, -⟩ := Course.waits_run_cases (c.outcome deliver r)
          (n := 0) (b := .ofSettings c.settings) Option.none
        · exact none
        · cases (Backoff.next_of_left_eq_zero left).symm.trans next
      simp [none] at h
    · have waits := Course.waits_run (c.outcome deliver r) (n := 0) (b := .ofSettings c.settings)
        none (i := i) (d := d) capped h
      rwa [Nat.zero_add] at waits

/-- The delays climb to the ceiling at most, and no request waits for longer but where an answer
asks for it, exactly if there are no retries or the first delay is not above the ceiling, up to
what seconds in doubles tell apart. -/
theorem ceiling_kept_iff (c : RestClient) :
    let s := c.settings
    let capped := s.maxRetries = 0 ∨ s.initialBackoff.NoLonger s.maxBackoff
    ((∀ calls, Climbs s.maxBackoff ((Backoff.ofSettings s).handedOut calls)) ↔ capped) ∧
    ((∀ deliver r i d, (c.perform deliver r).waits[i]? = some d →
      d.NoLonger s.maxBackoff ∨ (c.outcome deliver r i).Asks d) ↔ capped) ∧
    ∀ d e : Duration, e.seconds < 2 ^ 23 → (d.NoLonger e ↔ d ≤ e) :=
  ⟨(Backoff.ofSettings c.settings).climbs_iff, c.waits_perform_iff, fun _ _ => noLonger_iff_le⟩

def impatient : HttpSettings :=
  { maxRetries := 2, initialBackoff := .ofSeconds 10, maxBackoff := .ofSeconds 5 }

theorem first_delay_above_ceiling :
    let delays := (Backoff.ofSettings impatient).handedOut 2
    delays = [.ofSeconds 10, .ofSeconds 5] ∧ ¬ Climbs impatient.maxBackoff delays := by
  intro delays
  have handed : delays = [.ofSeconds 10, .ofSeconds 5] := by decide +kernel
  refine ⟨handed, fun climbs => ?_⟩
  have below := climbs.below (.ofSeconds 10) (handed ▸ List.mem_cons_self)
  have above : ¬ Duration.ofSeconds 10 ≤ .ofSeconds 5 := by decide +kernel
  exact above ((noLonger_iff_le (by decide +kernel)).1 below)

end RestClient

end MarketFeed
