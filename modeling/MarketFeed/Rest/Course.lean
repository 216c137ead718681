import MarketFeed.Http
import MarketFeed.Metric
import MarketFeed.Rest.Backoff

/-!
# The course of a request

A request is attempted until an answer is final or no retries are left. Before every attempt a
token is taken from the rate limit. What is returned is the latest answer, or the failure of the
last attempt if there was never an answer.
-/

namespace MarketFeed

/-- What comes of one attempt: an answer, or the detail of a failure. -/
abbrev Attempted := Except String Response

inductive Remedy where
  | none
  | retry
  | retryWhenAllowed
  deriving DecidableEq, Repr

def Remedy.ofStatus (status : Nat) : Remedy :=
  if status = 429 then retryWhenAllowed
  else if status = 408 || 500 ≤ status && status ≤ 599 then retry
  else none

def Response.retryAfter? (r : Response) : Option Duration :=
  ((r.header? "retry-after").bind fun s =>
    Digits.boundedNat? ((1 <<< 64) - 1) (trim s.toList)).map Duration.ofSeconds

namespace Attempted

def isFinal : Attempted → Bool
  | .ok r => Remedy.ofStatus r.status = .none
  | .error _ => false

def wait (a : Attempted) (delay : Duration) : Duration :=
  match a with
  | .ok r =>
    if Remedy.ofStatus r.status = .retryWhenAllowed then r.retryAfter?.getD delay else delay
  | .error _ => delay

def latest (a : Attempted) (last : Option Response) : Option Response :=
  match a with
  | .ok r => some r
  | .error _ => last

end Attempted

inductive Course.Step where
  | token
  | attempt (result : Attempted)
  | wait (delay : Duration)

inductive Conclusion where
  | response (r : Response)
  | failed (detail : String)
  | outOfRange

namespace Conclusion

def ofAttempt (a : Attempted) (last : Option Response) : Conclusion :=
  match a, last with
  | .ok r, _ => response r
  | .error _, some r => response r
  | .error detail, none => failed detail

/-- What the caller gets; nothing if the delays were out of range. -/
def outcome? : Conclusion → Option Outcome
  | response r => some (.ok r)
  | failed detail => some (.error (.network detail))
  | outOfRange => none

end Conclusion

structure Course where
  steps : List Course.Step
  conclusion : Conclusion

namespace Course

/-- Performs a request from attempt `n` on, where `attempt` says what comes of each. -/
def run (attempt : Nat → Attempted) (n : Nat) (b : Backoff) (last : Option Response) : Course :=
  let result := attempt n
  let steps := [.token, .attempt result]
  if result.isFinal then ⟨steps, .ofAttempt result last⟩
  else match h : b.next with
    | (.exhausted, _) => ⟨steps, .ofAttempt result last⟩
    | (.outOfRange, _) => ⟨steps, .outOfRange⟩
    | (.after delay, b') =>
      have := Backoff.left_next_lt h
      let rest := run attempt (n + 1) b' (result.latest last)
      ⟨steps ++ .wait (result.wait delay) :: rest.steps, rest.conclusion⟩
termination_by b.left

def attempts (c : Course) : List Attempted :=
  c.steps.filterMap fun
    | .attempt a => some a
    | _ => none

def waits (c : Course) : List Duration :=
  c.steps.filterMap fun
    | .wait d => some d
    | _ => none

/-- Every answer is a sample; attempts without one are not. -/
def samples (method : Method) (c : Course) : List Sample :=
  c.attempts.filterMap fun
    | .ok r => some (.request method.name (.ofStatus r.status))
    | .error _ => none

end Course

end MarketFeed
