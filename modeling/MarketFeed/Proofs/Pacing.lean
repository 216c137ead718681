import Mathlib
import MarketFeed.Bucket

/-!
# Pacing by a bucket

What is asked of a bucket over time, and how many tokens it grants. Over exact numbers every call
spends what it grants from the level that it finds, and the level grows with time by the rate at
most, so that no window sees more tokens than a full bucket and the refill of the window.
-/

namespace MarketFeed

namespace Bucket

inductive Use where
  | tryAcquire
  | available
  | reserve
  deriving DecidableEq, Repr

section

variable {α : Type} [TokenNumber α]

def use (b : Bucket α) (now : Nat) : Use → Bool × Bucket α
  | .tryAcquire => b.tryAcquire now
  | .available => (false, (b.available now).2)
  | .reserve => ((b.reserve now).1.isNone, (b.reserve now).2)

def after (b : Bucket α) : List (Nat × Use) → Bucket α
  | [] => b
  | (now, u) :: uses => (b.use now u).2.after uses

def grants (b : Bucket α) : List (Nat × Use) → List Nat
  | [] => []
  | (now, u) :: uses =>
    let (granted, b) := b.use now u
    (if granted then [now] else []) ++ b.grants uses

def wait (b : Bucket α) : Duration :=
  (TokenNumber.toDuration? (TokenNumber.div (TokenNumber.sub (TokenNumber.ofNat 1) b.tokens)
    b.rate)).getD .longest

section

variable {b : Bucket α} {now : Nat}

theorem refill_enabled (enabled : b.isEnabled = true) (now : Nat) : (b.refill now).tokens =
    TokenNumber.min (TokenNumber.mulAdd (TokenNumber.ofDuration (.clamp (now - b.refilledAt)))
      b.rate b.tokens) b.capacity := by
  unfold refill
  rw [enabled]
  rfl

theorem refill_disabled (disabled : b.isEnabled = false) (now : Nat) :
    (b.refill now).tokens = b.tokens := by
  unfold refill
  rw [disabled]
  rfl

theorem reserve_disabled (disabled : b.isEnabled = false) : b.reserve now = (none, b) := by
  unfold reserve
  rw [disabled]
  rfl

theorem reserve_granted (enabled : b.isEnabled = true)
    (h : TokenNumber.le (TokenNumber.ofNat 1) (b.refill now).tokens = true) :
    b.reserve now = (none, { b.refill now with
      tokens := TokenNumber.sub (b.refill now).tokens (TokenNumber.ofNat 1) }) := by
  unfold reserve
  rw [enabled]
  exact if_pos h

theorem reserve_short (enabled : b.isEnabled = true)
    (h : TokenNumber.le (TokenNumber.ofNat 1) (b.refill now).tokens = false) :
    b.reserve now = (some (b.refill now).wait, b.refill now) := by
  unfold reserve
  rw [enabled]
  exact if_neg (ne_true_of_eq_false h)

end

theorem mem_grants {b : Bucket α} {uses : List (Nat × Use)} {t : Nat} (h : t ∈ b.grants uses) :
    t ∈ uses.map Prod.fst := by
  induction uses generalizing b with
  | nil => exact h
  | cons u uses ih =>
    rw [grants, List.mem_append] at h
    rw [List.map_cons, List.mem_cons]
    rcases h with granted | later
    · split at granted
      · exact .inl (List.mem_singleton.1 granted)
      · cases granted
    · exact .inr (ih later)

end

/-! ## One use, over exact numbers -/

structure Stocked (b : Bucket ℚ) : Prop where
  rate_pos : 0 < b.rate
  nonneg : 0 ≤ b.tokens
  le_capacity : b.tokens ≤ b.capacity

def seconds (nanos : Nat) : ℚ := nanos / nanosPerSecond

theorem seconds_nonneg (n : Nat) : 0 ≤ seconds n := by
  unfold seconds
  positivity

theorem seconds_sub_add {t u v : Nat} (htu : t ≤ u) (huv : u ≤ v) :
    seconds (v - u) + seconds (u - t) = seconds (v - t) := by
  unfold seconds
  rw [← add_div, Nat.cast_sub huv, Nat.cast_sub htu, Nat.cast_sub (htu.trans huv)]
  ring

variable {b : Bucket ℚ}

theorem isEnabled_of_pos (h : 0 < b.rate) : b.isEnabled = true := decide_eq_true h

def level (b : Bucket ℚ) (now : Nat) : ℚ := (b.refill now).tokens

theorem level_eq (h : 0 < b.rate) (now : Nat) : b.level now =
    min (TokenNumber.ofDuration (.clamp (now - b.refilledAt)) * b.rate + b.tokens) b.capacity := by
  rw [level, refill_enabled (isEnabled_of_pos h), min_def]
  rfl

theorem elapsed_le (n : Nat) : (TokenNumber.ofDuration (.clamp n) : ℚ) ≤ seconds n := by
  show ((Nat.min n (durationLimit - 1) : Nat) : ℚ) / nanosPerSecond ≤ seconds n
  unfold seconds
  gcongr
  exact Nat.min_le_left ..

theorem Stocked.level_le (h : b.Stocked) (now : Nat) :
    b.level now ≤ b.tokens + b.rate * seconds (now - b.refilledAt) := by
  have grown := mul_le_mul_of_nonneg_right (elapsed_le (now - b.refilledAt)) h.rate_pos.le
  rw [level_eq h.rate_pos]
  apply (min_le_left ..).trans
  linarith

theorem Stocked.level_le_capacity (h : b.Stocked) (now : Nat) : b.level now ≤ b.capacity := by
  rw [level_eq h.rate_pos]
  exact min_le_right ..

theorem Stocked.level_nonneg (h : b.Stocked) (now : Nat) : 0 ≤ b.level now := by
  have elapsed : (0 : ℚ) ≤ TokenNumber.ofDuration (Duration.clamp (now - b.refilledAt)) := by
    show (0 : ℚ) ≤ ((Duration.clamp _).nanos : ℚ) / _
    positivity
  have grown := mul_nonneg elapsed h.rate_pos.le
  rw [level_eq h.rate_pos]
  apply le_min
  · linarith [h.nonneg]
  · exact h.nonneg.trans h.le_capacity

theorem Stocked.refill (h : b.Stocked) (now : Nat) : (b.refill now).Stocked :=
  ⟨h.rate_pos, h.level_nonneg now, h.level_le_capacity now⟩

theorem Stocked.refill_refill (h : b.Stocked) (now : Nat) :
    (b.refill now).refill now = b.refill now := by
  have still : (b.refill now).level now = b.level now := by
    have none : (TokenNumber.ofDuration (.clamp (now - now)) : ℚ) = 0 := by
      rw [Nat.sub_self]
      exact zero_div _
    have full := h.level_le_capacity now
    rw [level_eq (h.refill now).rate_pos]
    show min (TokenNumber.ofDuration (.clamp (now - now)) * b.rate + b.level now) b.capacity = _
    rw [none, zero_mul, zero_add, min_eq_left full]
  exact congrArg (fun tokens => { b.refill now with tokens }) still

theorem Stocked.reserve_refill (h : b.Stocked) (now : Nat) :
    (b.refill now).reserve now = b.reserve now := by
  have enabled := isEnabled_of_pos h.rate_pos
  have enabled' : (b.refill now).isEnabled = true := enabled
  have again := h.refill_refill now
  cases one : TokenNumber.le (TokenNumber.ofNat 1) (b.refill now).tokens with
  | true =>
    have one' := one
    rw [← again] at one'
    rw [reserve_granted enabled one, reserve_granted enabled' one', again]
  | false =>
    have one' := one
    rw [← again] at one'
    rw [reserve_short enabled one, reserve_short enabled' one', again]

theorem Stocked.use_refill (h : b.Stocked) (now : Nat) (u : Use) :
    (b.refill now).use now u = b.use now u := by
  have again := h.reserve_refill now
  cases u with
  | tryAcquire => exact congrArg (fun r => (r.1.isNone, r.2)) again
  | reserve => exact congrArg (fun r => (r.1.isNone, r.2)) again
  | available => exact congrArg (fun b => (false, b)) (h.refill_refill now)

/-- A use spends what it grants from the level that it finds, and changes nothing else. -/
structure Spends (b : Bucket ℚ) (now : Nat) (granted : Bool) (b' : Bucket ℚ) : Prop where
  spent : b'.tokens = b.level now - (if granted then 1 else 0)
  nonneg : 0 ≤ b'.tokens
  capacity : b'.capacity = b.capacity
  rate : b'.rate = b.rate
  refilledAt : b'.refilledAt = now

theorem Stocked.reserve_spends (h : b.Stocked) (now : Nat) :
    b.Spends now (b.reserve now).1.isNone (b.reserve now).2 := by
  have enabled := isEnabled_of_pos h.rate_pos
  by_cases one : 1 ≤ b.level now
  · rw [reserve_granted enabled (decide_eq_true one)]
    exact ⟨rfl, sub_nonneg.2 one, rfl, rfl, rfl⟩
  · rw [reserve_short enabled (decide_eq_false one)]
    exact ⟨(sub_zero _).symm, h.level_nonneg now, rfl, rfl, rfl⟩

theorem Stocked.use_spends (h : b.Stocked) (now : Nat) (u : Use) :
    b.Spends now (b.use now u).1 (b.use now u).2 := by
  cases u with
  | tryAcquire => exact h.reserve_spends now
  | reserve => exact h.reserve_spends now
  | available => exact ⟨(sub_zero _).symm, h.level_nonneg now, rfl, rfl, rfl⟩

theorem Stocked.spends {now : Nat} {granted : Bool} {b' : Bucket ℚ} (h : b.Stocked)
    (s : b.Spends now granted b') : b'.Stocked := by
  have most := h.level_le_capacity now
  refine ⟨s.rate ▸ h.rate_pos, s.nonneg, ?_⟩
  rw [s.spent, s.capacity]
  split <;> linarith

/-! ## Series of uses -/

def Forward (start : Nat) (uses : List (Nat × Use)) : Prop :=
  (start :: uses.map Prod.fst).Pairwise (· ≤ ·)

theorem Forward.cons {start now : Nat} {u : Use} {uses : List (Nat × Use)}
    (h : Forward start ((now, u) :: uses)) : start ≤ now ∧ Forward now uses := by
  obtain ⟨first, rest⟩ := List.pairwise_cons.1 h
  exact ⟨first now List.mem_cons_self, rest⟩

theorem Forward.again {now : Nat} {uses : List (Nat × Use)} (h : Forward now uses) (u : Use) :
    Forward now ((now, u) :: uses) :=
  List.pairwise_cons.2 ⟨List.forall_mem_cons.2 ⟨le_rfl, (List.pairwise_cons.1 h).1⟩, h⟩

theorem Forward.le_of_mem_grants {start : Nat} {uses : List (Nat × Use)} (h : Forward start uses)
    {t : Nat} (ht : t ∈ b.grants uses) : start ≤ t :=
  (List.pairwise_cons.1 h).1 t (mem_grants ht)

theorem Stocked.after (h : b.Stocked) (uses : List (Nat × Use)) :
    (b.after uses).Stocked ∧ (b.after uses).capacity = b.capacity := by
  induction uses generalizing b with
  | nil => exact ⟨h, rfl⟩
  | cons u uses ih =>
    have s := h.use_spends u.1 u.2
    obtain ⟨stocked, capacity⟩ := ih (h.spends s)
    exact ⟨stocked, capacity.trans s.capacity⟩

def issued (b : Bucket ℚ) (uses : List (Nat × Use)) (since till : Nat) : Nat :=
  (b.grants uses).countP fun t => since ≤ t ∧ t ≤ till

theorem issued_cons (now : Nat) (u : Use) (uses : List (Nat × Use)) (since till : Nat) :
    b.issued ((now, u) :: uses) since till =
      (if (b.use now u).1 ∧ since ≤ now ∧ now ≤ till then 1 else 0) +
        (b.use now u).2.issued uses since till := by
  unfold issued
  rw [grants, List.countP_append]
  congr 1
  cases (b.use now u).1 <;> simp [List.countP_singleton]

theorem issued_eq_zero {start till : Nat} {uses : List (Nat × Use)} (h : Forward start uses)
    (before : till < start) (since : Nat) : b.issued uses since till = 0 := by
  refine List.countP_eq_zero.2 fun t ht => ?_
  have := h.le_of_mem_grants ht
  simp only [decide_eq_true_eq]
  omega

section

variable {now : Nat} {granted : Bool} {b' : Bucket ℚ}

theorem Spends.spent_add (s : b.Spends now granted b') (p : Prop) [Decidable p] :
    ((if granted ∧ p then 1 else 0 : Nat) : ℚ) + b'.tokens ≤ b.level now := by
  rw [s.spent]
  by_cases h : granted = true
  · by_cases hp : p <;> simp [h, hp]
  · simp [h]

end

theorem Stocked.issued_le (h : b.Stocked) {uses : List (Nat × Use)}
    (forward : Forward b.refilledAt uses) (since : Nat) {till : Nat} (begun : b.refilledAt ≤ till) :
    (b.issued uses since till : ℚ) ≤ b.tokens + b.rate * seconds (till - b.refilledAt) := by
  induction uses generalizing b with
  | nil =>
    have refill := mul_nonneg h.rate_pos.le (seconds_nonneg (till - b.refilledAt))
    show ((0 : Nat) : ℚ) ≤ _
    rw [Nat.cast_zero]
    exact add_nonneg h.nonneg refill
  | cons entry uses ih =>
    obtain ⟨now, u⟩ := entry
    obtain ⟨later, rest⟩ := forward.cons
    have s := h.use_spends now u
    have spent := s.spent_add (since ≤ now ∧ now ≤ till)
    have level := h.level_le now
    rw [issued_cons, Nat.cast_add]
    by_cases past : till < now
    · have refill := mul_nonneg h.rate_pos.le (seconds_nonneg (till - b.refilledAt))
      rw [issued_eq_zero rest past, if_neg (by omega), Nat.cast_zero, add_zero]
      exact add_nonneg h.nonneg refill
    · have remaining := ih (h.spends s) (by rwa [s.refilledAt]) (by rw [s.refilledAt]; omega)
      rw [s.refilledAt, s.rate] at remaining
      rw [← seconds_sub_add later (Nat.le_of_not_lt past), mul_add]
      linarith

theorem Stocked.issued_window (h : b.Stocked) {uses : List (Nat × Use)}
    (forward : Forward b.refilledAt uses) (since till : Nat) :
    (b.issued uses since till : ℚ) ≤ b.capacity + b.rate * seconds (till - since) := by
  induction uses generalizing b with
  | nil =>
    have refill := mul_nonneg h.rate_pos.le (seconds_nonneg (till - since))
    show ((0 : Nat) : ℚ) ≤ _
    rw [Nat.cast_zero]
    exact add_nonneg (h.nonneg.trans h.le_capacity) refill
  | cons entry uses ih =>
    obtain ⟨now, u⟩ := entry
    obtain ⟨later, rest⟩ := forward.cons
    by_cases before : now < since
    · have s := h.use_spends now u
      have remaining := ih (h.spends s) (by rwa [s.refilledAt])
      rw [s.capacity, s.rate] at remaining
      rwa [issued_cons, if_neg (by omega), Nat.zero_add]
    · -- The window is open when this use comes, which finds a full bucket at most.
      have same : (b.refill now).issued ((now, u) :: uses) since till =
          b.issued ((now, u) :: uses) since till := by
        rw [issued_cons, issued_cons, h.use_refill]
      have full := h.level_le_capacity now
      have window := mul_nonneg h.rate_pos.le (seconds_nonneg (till - since))
      by_cases past : till < now
      · rw [issued_eq_zero (rest.again u) past, Nat.cast_zero]
        exact add_nonneg (h.nonneg.trans h.le_capacity) window
      · have issued := (h.refill now).issued_le (rest.again u) since (Nat.le_of_not_lt past)
        rw [same] at issued
        have shorter : seconds (till - now) ≤ seconds (till - since) := by
          unfold seconds
          gcongr
          omega
        have refill := mul_le_mul_of_nonneg_left shorter h.rate_pos.le
        change _ ≤ b.level now + b.rate * seconds (till - now) at issued
        linarith

theorem full_stocked (capacity : Nat) {rate : ℚ} (h : 0 < rate) (start : Nat) :
    (full capacity rate start).Stocked :=
  ⟨h, Nat.cast_nonneg _, le_rfl⟩

/-- However it is used, a bucket over exact numbers holds its level between empty and full, no
window sees more tokens than a full bucket and the refill of the window, and no instant more than
a full bucket. -/
theorem issued_limited (capacity : Nat) {rate : ℚ} (positive : 0 < rate) (start : Nat)
    {uses : List (Nat × Use)} (forward : Forward start uses) :
    (∀ earlier, earlier <+: uses →
      0 ≤ ((full capacity rate start).after earlier).tokens ∧
        ((full capacity rate start).after earlier).tokens ≤ (max capacity 1 : Nat)) ∧
    (∀ since length, ((full capacity rate start).issued uses since (since + length) : ℚ) ≤
      (max capacity 1 : Nat) + rate * seconds length) ∧
    ∀ now, ((full capacity rate start).grants uses).count now ≤ max capacity 1 := by
  have stocked := full_stocked capacity positive start
  have window (since length : Nat) :
      ((full capacity rate start).issued uses since (since + length) : ℚ) ≤
        (max capacity 1 : Nat) + rate * seconds length := by
    have issued := stocked.issued_window forward since (since + length)
    rwa [Nat.add_sub_cancel_left] at issued
  refine ⟨fun earlier _ => ?_, window, fun now => ?_⟩
  · obtain ⟨held, same⟩ := stocked.after earlier
    exact ⟨held.nonneg, held.le_capacity.trans_eq same⟩
  · have instant : ((full capacity rate start).grants uses).count now =
        (full capacity rate start).issued uses now (now + 0) := by
      refine List.countP_congr fun t _ => ?_
      rw [beq_iff_eq, decide_eq_true_eq]
      omega
    have issued := window now 0
    rw [← instant] at issued
    have none : seconds 0 = 0 := zero_div _
    rw [none, mul_zero, add_zero] at issued
    exact_mod_cast issued

def burst : List (Nat × Use) :=
  [(0, .tryAcquire), (0, .reserve), (0, .tryAcquire), (1500000000, .available),
    (2000000000, .reserve), (2000000000, .reserve)]

theorem issued_limited_burst :
    0 < (1 / 2 : ℚ) ∧ Forward 0 burst ∧ (full 2 (1 / 2 : ℚ) 0).grants burst = [0, 0, 2000000000] ∧
      ∀ since length, ((full 2 (1 / 2 : ℚ) 0).issued burst since (since + length) : ℚ) ≤
        (max 2 1 : Nat) + 1 / 2 * seconds length := by
  have positive : 0 < (1 / 2 : ℚ) := by norm_num
  have forward : Forward 0 burst := by
    unfold Forward
    decide
  exact ⟨positive, forward, by decide +kernel, (issued_limited 2 positive 0 forward).2.1⟩

end Bucket

end MarketFeed
