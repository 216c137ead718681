import Mathlib
import MarketFeed.Proofs.Pacing
import MarketFeed.Proofs.Seconds

/-!
# Waiting for a token

When the wait that a bucket announces is long enough, with levels and rates in doubles. The wait is
rounded to a nanosecond and turned into tokens again when it is over. This comes to a token exactly
if the roundings lose no more than half a spacing of doubles below one.
-/

namespace MarketFeed

namespace Binary64

/-! ## Doubles that are not negative -/

def Unsigned : Binary64 → Prop
  | .nan => False
  | .infinite negative | .finite negative _ => negative = false

theorem ofUnits_unsigned (n d : Nat) : (ofUnits false n d).Unsigned := by
  unfold ofUnits
  dsimp only
  split_ifs <;> rfl

theorem Unsigned.min {x y : Binary64} (hx : x.Unsigned) (hy : y.Unsigned) : (x.min y).Unsigned := by
  unfold Binary64.min
  split_ifs
  · exact hy
  · exact hx

theorem ofNat_one : ofNat 1 = one := (ofNat_eq (by decide)).trans (by rw [Nat.one_mul]; rfl)

theorem one_le_iff {s : Bool} {m : Nat} :
    one.le (.finite s m) = true ↔ (unitsPerOne : Int) ≤ signedUnits s m := by
  simp [le, lt, eq, one, signedUnits, le_iff_lt_or_eq]

theorem one_le_finite {m : Nat} : one.le (.finite false m) = true ↔ unitsPerOne ≤ m := by
  rw [one_le_iff]
  exact Int.ofNat_le

theorem fma_finite (m n k : Nat) :
    fma (.finite false m) (.finite false n) (.finite false k) =
      ofUnits false (m * n + k * unitsPerOne) unitsPerOne := by
  rw [← ofSum_natCast, Nat.cast_add]
  rfl

theorem fma_unsigned (m n : Nat) {z : Binary64} (h : z.Unsigned) :
    (fma (.finite false m) (.finite false n) z).Unsigned := by
  cases z with
  | nan => exact h
  | infinite => exact h
  | finite s k =>
    cases h
    rw [fma_finite]
    exact ofUnits_unsigned ..

theorem Unsigned.sub_one {x : Binary64} (h : x.Unsigned) (one_le : one.le x = true) :
    (x.sub one).Unsigned := by
  cases x with
  | nan => exact h
  | infinite => exact h
  | finite s m =>
    cases h
    have least := one_le_finite.1 one_le
    have difference : (finite false m).sub one = ofUnits false (m - unitsPerOne) 1 := by
      rw [← ofSum_natCast, Nat.cast_sub least]
      rfl
    rw [difference]
    exact ofUnits_unsigned ..

theorem one_le_trans {x y : Binary64} (hy : one.le y = true) (h : y.lt x = true) :
    one.le x = true := by
  cases y with
  | nan => cases hy
  | infinite s =>
    cases s
    · cases x <;> cases h
    · cases hy
  | finite s m =>
    cases x with
    | nan => cases h
    | infinite t => cases t <;> first | rfl | cases h
    | finite t n =>
      rw [one_le_iff] at hy ⊢
      have less : signedUnits s m < signedUnits t n := of_decide_eq_true h
      omega

theorem unsigned_of_one_le {x : Binary64} (h : one.le x = true) : x.Unsigned := by
  cases x with
  | nan => cases h
  | infinite s =>
    cases s
    · rfl
    · cases h
  | finite s m =>
    have positive := unitsPerOne_pos
    rw [one_le_iff] at h
    cases s
    · rfl
    · change (unitsPerOne : Int) ≤ -m at h
      omega

theorem Unsigned.min_eq {x y : Binary64} (hx : x.Unsigned) (hy : one.le y = true)
    (short : one.le x = false) : x.min y = x := by
  unfold Binary64.min
  split_ifs with less
  · rw [Bool.or_eq_true] at less
    rcases less with less | nan
    · cases short.symm.trans (one_le_trans hy less)
    · cases x with
      | nan => exact hx.elim
      | infinite | finite => cases nan
  · rfl

theorem Unsigned.one_le_min {x y : Binary64} (hx : x.Unsigned) (hy : one.le y = true) :
    one.le (x.min y) = one.le x := by
  cases reached : one.le x with
  | false => rw [hx.min_eq hy reached, reached]
  | true =>
    unfold Binary64.min
    split_ifs
    · exact hy
    · exact reached

theorem one_le_ofUnits_iff {n d : Nat} :
    one.le (ofUnits false n d) = true ↔ unitsPerOne ≤ roundUnits n d := by
  unfold ofUnits
  dsimp only
  split_ifs with fits
  · exact one_le_finite
  · have largest := mul_unitsPerOne_le_maxUnits (c := 1) (by decide)
    exact iff_of_true rfl (by omega)

theorem finite_of_short {n d : Nat} (hd : 0 < d) (short : one.le (ofUnits false n d) = false) :
    ∃ t, ofUnits false n d = .finite false t ∧ IsMagnitude t ∧ t < unitsPerOne := by
  have less : roundUnits n d < unitsPerOne := by
    by_contra reached
    cases short.symm.trans (one_le_ofUnits_iff.2 (Nat.le_of_not_lt reached))
  have largest := mul_unitsPerOne_le_maxUnits (c := 1) (by decide)
  refine ⟨roundUnits n d, ?_, roundUnits_isMagnitude n hd, less⟩
  exact if_pos (by omega)

theorem fma_short {m n : Nat} {z : Binary64} (hz : z.Unsigned)
    (short : one.le (fma (.finite false m) (.finite false n) z) = false) :
    ∃ t, fma (.finite false m) (.finite false n) z = .finite false t ∧ IsMagnitude t ∧
      t < unitsPerOne := by
  cases z with
  | nan => exact hz.elim
  | infinite s =>
    cases hz
    cases short
  | finite s k =>
    cases hz
    rw [fma_finite] at short ⊢
    exact finite_of_short unitsPerOne_pos short

theorem one_le_ofUnits {n : Nat} : one.le (ofUnits false n unitsPerOne) = true ↔
    (2 ^ 54 - 1) * (unitsPerOne * unitsPerOne) ≤ 2 ^ 54 * n := by
  obtain ⟨k, hk⟩ := exists_unitsPerOne_eq (j := 54) (by decide)
  have power : unitsPerOne = 2 ^ (k + 54) := by rw [hk, Nat.pow_add, Nat.mul_comm]
  have reached := two_pow_le_roundUnits_iff (n := n) (k := k) unitsPerOne_pos
  rw [← power] at reached
  have square : unitsPerOne * unitsPerOne = 2 ^ 54 * (2 ^ k * unitsPerOne) := by
    rw [← Nat.mul_assoc, ← hk]
  rw [one_le_ofUnits_iff, reached, square]
  omega

end Binary64

namespace Bucket

open Binary64

variable {b : Bucket Binary64}

/-! ## Levels in doubles -/

structure Leveled (b : Bucket Binary64) : Prop where
  tokens : b.tokens.Unsigned
  capacity : one.le b.capacity = true

theorem isEnabled_iff : b.isEnabled = true ↔ ∃ r, b.rate = .finite false r ∧ 0 < r := by
  show (zero.lt b.rate && b.rate.isFinite) = true ↔ _
  cases b.rate with
  | nan | infinite => simp [isFinite]
  | finite s m => cases s <;> simp [zero, lt, isFinite, signedUnits]

theorem refill_tokens {r : Nat} (h : b.rate = .finite false r) (positive : 0 < r) (now : Nat) :
    (b.refill now).tokens = (fma (.finite false (Duration.clamp (now - b.refilledAt)).units)
      (.finite false r) b.tokens).min b.capacity := by
  rw [refill_enabled (isEnabled_iff.2 ⟨r, h, positive⟩), ← Duration.toSeconds_eq_units, ← h]
  rfl

theorem Leveled.refill (h : b.Leveled) (now : Nat) : (b.refill now).Leveled := by
  refine ⟨?_, h.capacity⟩
  cases enabled : b.isEnabled with
  | false =>
    rw [refill_disabled enabled]
    exact h.tokens
  | true =>
    obtain ⟨r, rate, positive⟩ := isEnabled_iff.1 enabled
    rw [refill_tokens rate positive]
    exact (fma_unsigned _ _ h.tokens).min (unsigned_of_one_le h.capacity)

theorem Leveled.reserve (h : b.Leveled) (now : Nat) : (b.reserve now).2.Leveled := by
  cases enabled : b.isEnabled with
  | false =>
    rw [reserve_disabled enabled]
    exact h
  | true =>
    have found := h.refill now
    cases token : TokenNumber.le (TokenNumber.ofNat 1) (b.refill now).tokens with
    | false =>
      rw [reserve_short enabled token]
      exact found
    | true =>
      rw [reserve_granted enabled token]
      change (Binary64.ofNat 1).le _ = true at token
      rw [ofNat_one] at token
      refine ⟨?_, found.capacity⟩
      show ((b.refill now).tokens.sub (Binary64.ofNat 1)).Unsigned
      rw [ofNat_one]
      exact found.tokens.sub_one token

theorem Leveled.use (h : b.Leveled) (now : Nat) (u : Use) : (b.use now u).2.Leveled := by
  cases u with
  | tryAcquire => exact h.reserve now
  | reserve => exact h.reserve now
  | available => exact h.refill now

theorem Leveled.after (h : b.Leveled) (uses : List (Nat × Use)) : (b.after uses).Leveled := by
  induction uses generalizing b with
  | nil => exact h
  | cons u uses ih => exact ih (h.use u.1 u.2)

theorem full_leveled (capacity : Nat) (rate : Binary64) (start : Nat) :
    (full capacity rate start).Leveled := by
  refine ⟨ofUnits_unsigned .., one_le_ofUnits_iff.2 ?_⟩
  have one := isMagnitude_mul_unitsPerOne (c := 1) (by decide)
  rw [Nat.one_mul] at one
  apply one.le_roundUnits Nat.one_pos
  rw [Nat.mul_one]
  exact Nat.le_mul_of_pos_left _ (Nat.le_max_right ..)

/-! ## The announced wait -/

theorem Leveled.reserve_some (h : b.Leveled) {now : Nat} {wait : Duration}
    (announced : (b.reserve now).1 = some wait) :
    (b.reserve now).2 = b.refill now ∧ ∃ r t, b.rate = .finite false r ∧ 0 < r ∧
      (b.refill now).tokens = .finite false t ∧ IsMagnitude t ∧ t < unitsPerOne := by
  cases enabled : b.isEnabled with
  | false =>
    rw [reserve_disabled enabled] at announced
    cases announced
  | true =>
    cases token : TokenNumber.le (TokenNumber.ofNat 1) (b.refill now).tokens with
    | true =>
      rw [reserve_granted enabled token] at announced
      cases announced
    | false =>
      obtain ⟨r, rate, positive⟩ := isEnabled_iff.1 enabled
      rw [reserve_short enabled token]
      change (Binary64.ofNat 1).le _ = false at token
      rw [ofNat_one, refill_tokens rate positive] at token
      rw [refill_tokens rate positive]
      -- The capacity has no part in it, since a full bucket holds a token.
      have sum := fma_unsigned (Duration.clamp (now - b.refilledAt)).units r h.tokens
      rw [sum.one_le_min h.capacity] at token
      rw [sum.min_eq h.capacity token]
      obtain ⟨t, tokens, double, less⟩ := fma_short h.tokens token
      exact ⟨rfl, r, t, rate, positive, tokens, double, less⟩

def Reaches (rate tokens : Nat) (wait : Duration) : Prop :=
  (2 ^ 54 - 1) * (unitsPerOne * unitsPerOne) ≤ 2 ^ 54 * (wait.units * rate + tokens * unitsPerOne)

theorem Reaches.mono {r t : Nat} {d e : Duration} (h : Reaches r t d) (le : d ≤ e) :
    Reaches r t e := by
  unfold Reaches at h ⊢
  apply h.trans
  gcongr
  exact Duration.units_mono le

theorem not_reaches_zero {r t : Nat} (double : IsMagnitude t) (less : t < unitsPerOne) :
    ¬ Reaches r t .zero := by
  have gap := double.below (q := 0) (by rwa [Nat.pow_zero, Nat.one_mul])
  have zero : Duration.zero.units = 0 := by
    rw [Duration.units_of_whole (by decide) (by decide)]
    exact Nat.zero_mul _
  intro reached
  rw [Reaches, zero, Nat.zero_mul, Nat.zero_add, ← Nat.mul_assoc, ← Nat.mul_assoc] at reached
  have short := Nat.le_of_mul_le_mul_right reached unitsPerOne_pos
  have positive := unitsPerOne_pos
  rw [Nat.pow_zero, Nat.one_mul] at gap
  omega

theorem Leveled.reserve_eq_none_iff (h : b.Leveled) {r t : Nat} (rate : b.rate = .finite false r)
    (positive : 0 < r) (tokens : b.tokens = .finite false t) (later : Nat) :
    (b.reserve later).1 = none ↔ Reaches r t (.clamp (later - b.refilledAt)) := by
  have enabled := isEnabled_iff.2 ⟨r, rate, positive⟩
  have found : TokenNumber.le (TokenNumber.ofNat 1) (b.refill later).tokens = true ↔
      Reaches r t (.clamp (later - b.refilledAt)) := by
    show (Binary64.ofNat 1).le _ = true ↔ _
    have sum := fma_unsigned (Duration.clamp (later - b.refilledAt)).units r h.tokens
    rw [ofNat_one, refill_tokens rate positive, sum.one_le_min h.capacity, tokens, fma_finite]
    exact one_le_ofUnits
  rw [← found]
  cases token : TokenNumber.le (TokenNumber.ofNat 1) (b.refill later).tokens with
  | false =>
    rw [reserve_short enabled token]
    simp
  | true =>
    rw [reserve_granted enabled token]
    simp

theorem reaches_iff_toRat {r t : Nat} {wait : Duration} : Reaches r t wait ↔
    1 - 1 / 2 ^ 54 ≤
      wait.toSeconds.toRat * (finite false r).toRat + (finite false t).toRat := by
  have unit : (0 : ℚ) < unitsPerOne := by exact_mod_cast unitsPerOne_pos
  rw [Duration.toSeconds_eq_units]
  show (2 ^ 54 - 1) * (unitsPerOne * unitsPerOne) ≤ 2 ^ 54 * (wait.units * r + t * unitsPerOne) ↔
    1 - 1 / 2 ^ 54 ≤ (wait.units / unitsPerOne : ℚ) * (r / unitsPerOne) + t / unitsPerOne
  generalize unitsPerOne = u at unit ⊢
  generalize wait.units = w
  have sum : (w / u : ℚ) * (r / u) + t / u = (w * r + t * u) / (u * u) := by field_simp
  rw [sum, le_div_iff₀ (mul_pos unit unit), ← Nat.cast_le (α := ℚ)]
  push_cast
  constructor <;> intro h <;> linarith

def Reached (b : Bucket Binary64) : Prop :=
  ∃ capacity rate start uses, b = (full capacity rate start).after uses

/-- An announced wait is long enough: it is not zero, whoever comes when it is over is granted a
token if the bucket is left alone, and whoever waits for a token waits once. -/
structure Suffices (b : Bucket Binary64) (now : Nat) (wait : Duration) : Prop where
  positive : wait ≠ .zero
  granted : ∀ later, now + wait.nanos ≤ later → ((b.reserve now).2.reserve later).1 = none
  once : ∀ rounds, (b.acquire now (rounds + 2)).1 = some (Timer.wake now wait)

theorem acquire_once {now : Nat} {wait : Duration} (announced : (b.reserve now).1 = some wait)
    (granted : ((b.reserve now).2.reserve (Timer.wake now wait)).1 = none) (rounds : Nat) :
    (b.acquire now (rounds + 2)).1 = some (Timer.wake now wait) := by
  cases first : b.reserve now with
  | mk announced' kept =>
    rw [first] at announced granted
    cases announced
    cases second : kept.reserve (Timer.wake now wait) with
    | mk granted' rest =>
      rw [second] at granted
      cases granted
      simp [acquire, first, second]

/-- The wait that a bucket announces is long enough exactly if the rate makes up for the missing
part of the token within its seconds, as a double, to half a spacing below one. -/
theorem wait_suffices_iff (h : b.Reached) {now : Nat} {wait : Duration}
    (announced : (b.reserve now).1 = some wait) : b.Suffices now wait ↔
      1 - 1 / 2 ^ 54 ≤
        wait.toSeconds.toRat * b.rate.toRat + (b.refill now).tokens.toRat := by
  obtain ⟨capacity, rate, start, uses, reached⟩ := h
  have leveled : b.Leveled := reached ▸ (full_leveled capacity rate start).after uses
  obtain ⟨kept, r, t, rate, positive, tokens, double, less⟩ := leveled.reserve_some announced
  -- Whether a token is there later depends on the time since only, which is the wait at its end.
  have later_iff (later : Nat) : ((b.reserve now).2.reserve later).1 = none ↔
      Reaches r t (.clamp (later - now)) := by
    rw [kept]
    exact (leveled.refill now).reserve_eq_none_iff rate positive tokens later
  have exact : Duration.clamp (now + wait.nanos - now) = wait := by
    rw [Nat.add_sub_cancel_left]
    exact Duration.ext (Duration.nanos_clamp wait.nanos_lt)
  rw [rate, tokens, ← reaches_iff_toRat]
  constructor
  · intro suffices_
    have end_ := (later_iff _).1 (suffices_.granted _ le_rfl)
    rwa [exact] at end_
  · intro reaches
    have granted (later : Nat) (le : now + wait.nanos ≤ later) :
        ((b.reserve now).2.reserve later).1 = none := by
      rw [later_iff]
      apply reaches.mono
      exact Nat.le_min.2 ⟨Nat.le_sub_of_add_le' le, Nat.le_sub_one_of_lt wait.nanos_lt⟩
    refine ⟨?_, granted, acquire_once announced (granted _ (Timer.add_le_wake now wait))⟩
    rintro rfl
    exact not_reaches_zero double less reaches

theorem tenth_suffices :
    let b := (full 1 (Binary64.ofNat 10) 0).after [(0, .tryAcquire)]
    (b.reserve 0).1 = some (.ofMillis 100) ∧ b.Suffices 0 (.ofMillis 100) := by
  have announced : (((full 1 (Binary64.ofNat 10) 0).after [(0, .tryAcquire)]).reserve 0).1 =
      some (.ofMillis 100) := by decide +kernel
  refine ⟨announced, (wait_suffices_iff ⟨1, .ofNat 10, 0, _, rfl⟩ announced).2 ?_⟩
  decide +kernel

/-- A third of a second is rounded down: at its end the token is not there, and none is awaited. -/
theorem third_rounded_down :
    let b := (full 1 (Binary64.ofNat 3) 0).after [(0, .tryAcquire)]
    let wait := Duration.clamp 333333333
    wait < .longest ∧ (b.reserve 0).1 = some wait ∧
      ((b.reserve 0).2.reserve wait.nanos).1 = some .zero := by
  decide +kernel

end Bucket

end MarketFeed
