import Mathlib
import MarketFeed.Proofs.Doubling
import MarketFeed.Proofs.Series
import MarketFeed.Rest

/-!
# Retries

A request is attempted until an answer settles it or no retries are left. For every sequence of
outcomes this says which attempts are made, how long is waited between them, what is concluded
and what is counted.
-/

namespace MarketFeed

/-! ## One attempt -/

namespace Attempted

def Settles (a : Attempted) : Prop :=
  ∃ r, a = .ok r ∧ r.status ≠ 408 ∧ r.status ≠ 429 ∧ ¬ (500 ≤ r.status ∧ r.status ≤ 599)

/-- How long is waited after an outcome where the schedule has a delay: the seconds that an answer
asks for, if there were too many requests and it says how many seconds, or else the delay. -/
inductive Pause (delay : Duration) : Attempted → Duration → Prop
  | asked {r : Response} {text : String} {seconds : Nat} {d : Duration} (hr : r.status = 429)
      (ht : r.header? "retry-after" = some text)
      (hs : Digits.boundedNat? (2 ^ 64 - 1) (trim text.toList) = some seconds)
      (hd : d.nanos = seconds * nanosPerSecond) : Pause delay (.ok r) d
  | scheduled {a : Attempted} (h : ∀ r text seconds, a = .ok r → r.status = 429 →
      r.header? "retry-after" = some text →
      Digits.boundedNat? (2 ^ 64 - 1) (trim text.toList) ≠ some seconds) : Pause delay a delay

theorem boundedNat_le {greatest n : Nat} {cs : List Char}
    (h : Digits.boundedNat? greatest cs = some n) : n ≤ greatest := by
  unfold Digits.boundedNat? at h
  simpa using (Option.filter_eq_some_iff.1 h).2

theorem wait_pause (a : Attempted) (delay : Duration) : Pause delay a (a.wait delay) := by
  cases a with
  | error e => exact .scheduled nofun
  | ok r =>
    unfold wait
    dsimp only
    by_cases limited : r.status = 429
    · have remedy : Remedy.ofStatus r.status = .retryWhenAllowed := if_pos limited
      rw [if_pos remedy]
      unfold Response.retryAfter?
      cases ht : r.header? "retry-after" with
      | none =>
        refine .scheduled ?_
        rintro _ text seconds ⟨⟩ - h
        rw [ht] at h
        cases h
      | some text =>
        rw [Option.bind_some]
        cases hs : Digits.boundedNat? ((1 <<< 64) - 1) (trim text.toList) with
        | none =>
          refine .scheduled ?_
          rintro _ text' seconds ⟨⟩ - h
          rw [ht] at h
          cases h
          exact fun h => nomatch hs.symm.trans h
        | some seconds =>
          refine .asked limited ht hs (Duration.nanos_clamp ?_)
          have := boundedNat_le hs
          unfold durationLimit nanosPerSecond
          omega
    · have remedy : ¬ Remedy.ofStatus r.status = .retryWhenAllowed := by
        unfold Remedy.ofStatus
        rw [if_neg limited]
        split <;> nofun
      rw [if_neg remedy]
      refine .scheduled ?_
      rintro _ text seconds ⟨⟩ h
      exact absurd h limited

end Attempted

/-! ## The schedule -/

def HttpSettings.delay (s : HttpSettings) : Nat → Duration
  | 0 => s.initialBackoff
  | k + 1 => s.maxBackoff.twiceUpTo (s.delay k)

namespace Backoff

def following (b : Backoff) : Backoff :=
  { b with delay := b.ceiling.twiceUpTo b.delay, left := b.left - 1 }

def delays (b : Backoff) (k : Nat) : Duration := b.ceiling.twiceUpTo^[k] b.delay

end Backoff

/-! ## Steps -/

namespace Course

variable (attempt : Nat → Attempted) {n : Nat} {b : Backoff} (last : Option Response)

theorem run_final (h : (attempt n).isFinal = true) :
    run attempt n b last = ⟨[.token, .attempt (attempt n)], .ofAttempt (attempt n) last⟩ := by
  rw [run]
  simp only [h, if_true]

theorem run_exhausted (h : (attempt n).isFinal = false) (hl : b.left = 0) :
    run attempt n b last = ⟨[.token, .attempt (attempt n)], .ofAttempt (attempt n) last⟩ := by
  have none := Backoff.next_of_left_eq_zero hl
  rw [run]
  simp only [h, Bool.false_eq_true, if_false]
  split <;> rename_i hb
  · rfl
  · cases none.symm.trans hb
  · cases none.symm.trans hb

theorem run_after (h : (attempt n).isFinal = false) {d : Duration} {b' : Backoff}
    (hb : b.next = (.after d, b')) :
    run attempt n b last =
      ⟨[.token, .attempt (attempt n)] ++ .wait ((attempt n).wait d) ::
        (run attempt (n + 1) b' ((attempt n).latest last)).steps,
        (run attempt (n + 1) b' ((attempt n).latest last)).conclusion⟩ := by
  rw [run]
  simp only [h, Bool.false_eq_true, if_false]
  split <;> rename_i hb'
  · cases hb.symm.trans hb'
  · cases hb.symm.trans hb'
  · cases hb.symm.trans hb'
    rfl

section
variable {outcome : Nat → Attempted} {m : Nat}

end

def answers (cls : StatusClass) : Attempted → Bool
  | .ok r => StatusClass.ofStatus r.status = cls
  | .error _ => false

theorem count_samples (method : Method) (cls : StatusClass) (c : Course) :
    (c.samples method).count (.request method.name cls) = c.attempts.countP (answers cls) := by
  unfold samples
  induction c.attempts with
  | nil => rfl
  | cons a rest ih =>
    cases a with
    | error e => simpa [answers] using ih
    | ok r =>
      rw [List.countP_cons, ← ih]
      by_cases h : StatusClass.ofStatus r.status = cls <;> simp [answers, h]

theorem mem_samples {method : Method} {c : Course} {t : Sample} (h : t ∈ c.samples method) :
    ∃ cls, t = .request method.name cls := by
  obtain ⟨a, -, ha⟩ := List.mem_filterMap.1 h
  cases a with
  | error e => cases ha
  | ok r => exact ⟨_, (Option.some.inj ha).symm⟩

end Course

namespace Sample

end Sample

/-! ## Requests -/

namespace RestClient

variable (c : RestClient) (deliver : Message → Nat → Attempted) (r : Request)

def outcome (n : Nat) : Attempted :=
  match c.message? r with
  | some m => deliver m n
  | none => .error "builder error"

def limited : Nat → Attempted
  | 0 => .ok { status := 429, body := "", headers := [("retry-after", " 7 ")] }
  | 1 => .error "connection reset"
  | _ => .ok { status := 200, body := "quotes" }

end RestClient

end MarketFeed
