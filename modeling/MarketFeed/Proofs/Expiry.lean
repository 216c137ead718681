import Mathlib
import MarketFeed.Session

/-!
# Expiry

A time to live is cut twice, to the longest span and at the last instant, and so is a margin. Only the
second cut ever shows: every span that was cut reaches beyond the last instant, from whichever one it
starts.
-/

namespace MarketFeed

namespace Instant

def remaining (t : Instant) : Nat := (latest.nanos - t.nanos).toNat

theorem nanos_add_remaining (t : Instant) : t.nanos + t.remaining = latest.nanos := by
  have := t.le_latest
  unfold remaining
  simp only [latest]
  omega

theorem remaining_lt_longest (t : Instant) : t.remaining < longestSpanNanos := by
  have start := t.earliest_le
  have whole : (latestNanos - earliestNanos).toNat < longestSpanNanos := by decide
  unfold remaining
  simp only [latest]
  omega

theorem le_def {s t : Instant} : s ≤ t ↔ s.nanos ≤ t.nanos := Iff.rfl

end Instant

/-! ## Adding a duration -/

theorem Span.nanos_ofDuration (d : Duration) :
    (Span.ofDuration d).nanos = min d.nanos longestSpanNanos := by
  unfold Span.ofDuration Span.ofDuration?
  split_ifs with fits
  · exact (min_eq_left fits).symm
  · exact (min_eq_right (Nat.le_of_not_le fits)).symm

namespace Instant

variable (t : Instant) (d : Duration)

theorem add?_of_le (h : d.nanos ≤ t.remaining) :
    ∃ later, t.add? (.ofDuration d) = some later ∧ later.nanos = t.nanos + d.nanos := by
  have span : (Span.ofDuration d).nanos = d.nanos := by
    rw [Span.nanos_ofDuration]
    exact min_eq_left (h.trans t.remaining_lt_longest.le)
  have bound := t.nanos_add_remaining
  have reached : t.nanos + (Span.ofDuration d).nanos ≤ latestNanos := by
    simp only [latest] at bound
    omega
  refine ⟨_, dif_pos reached, ?_⟩
  show t.nanos + ((Span.ofDuration d).nanos : Int) = _
  rw [span]

theorem add?_of_lt (h : t.remaining < d.nanos) : t.add? (.ofDuration d) = none := by
  have span : t.remaining < (Span.ofDuration d).nanos := by
    rw [Span.nanos_ofDuration]
    exact lt_min h t.remaining_lt_longest
  have bound := t.nanos_add_remaining
  refine dif_neg fun reached => ?_
  simp only [latest] at bound
  omega

theorem add?_eq_none_iff : t.add? (.ofDuration d) = none ↔ t.remaining < d.nanos := by
  refine ⟨fun none => ?_, t.add?_of_lt d⟩
  by_contra! within
  obtain ⟨later, added, -⟩ := t.add?_of_le d within
  cases none.symm.trans added

theorem nanos_of_add?_eq_some {later : Instant} (h : t.add? (.ofDuration d) = some later) :
    later.nanos = t.nanos + d.nanos := by
  have within : d.nanos ≤ t.remaining := by
    by_contra! beyond
    cases (t.add?_of_lt d beyond).symm.trans h
  obtain ⟨later', added, nanos⟩ := t.add?_of_le d within
  cases added.symm.trans h
  exact nanos

end Instant

namespace Session

/-! ## Expiry -/

theorem nanos_expiresAt_withTtl (now : Instant) (url id : String) (ttl : Duration) :
    (withTtl now url id ttl).expiresAt.nanos = now.nanos + (min ttl.nanos now.remaining : Nat) := by
  show ((now.add? (.ofDuration ttl)).getD .latest).nanos = _
  by_cases h : ttl.nanos ≤ now.remaining
  · obtain ⟨later, added, nanos⟩ := now.add?_of_le ttl h
    rw [added, Option.getD_some, nanos, min_eq_left h]
  · have beyond := Nat.lt_of_not_le h
    rw [now.add?_of_lt ttl beyond, Option.getD_none, min_eq_right beyond.le]
    exact now.nanos_add_remaining.symm

theorem expiresWithin_iff (s : Session) (now : Instant) (margin : Duration) :
    s.expiresWithin now margin = true ↔
      s.expiresAt.nanos ≤ now.nanos + (min margin.nanos now.remaining : Nat) := by
  unfold expiresWithin
  by_cases h : margin.nanos ≤ now.remaining
  · obtain ⟨later, added, nanos⟩ := now.add?_of_le margin h
    rw [added, min_eq_left h, ← nanos]
    exact decide_eq_true_iff
  · have beyond := Nat.lt_of_not_le h
    rw [now.add?_of_lt margin beyond, min_eq_right beyond.le, now.nanos_add_remaining]
    exact iff_of_true rfl s.expiresAt.le_latest

theorem expiresWithin_mono (s : Session) (now : Instant) {margin longer : Duration}
    (h : margin ≤ longer) (he : s.expiresWithin now margin = true) :
    s.expiresWithin now longer = true := by
  rw [expiresWithin_iff] at he ⊢
  have : min margin.nanos now.remaining ≤ min longer.nanos now.remaining :=
    min_le_min_right _ h
  omega

theorem isExpired_eq (s : Session) (now : Instant) :
    s.isExpired now = s.expiresWithin now .zero := by
  rw [Bool.eq_iff_iff, expiresWithin_iff]
  simp [isExpired, Instant.le_def, Duration.zero]

/-- A time to live and a margin are both cut at what remains to the last instant, and nowhere before it:
a new session expires within a margin exactly if its time to live, cut so, is no longer than the margin,
cut so. The expiry, and the deadline where there is one, are exact sums. A longer margin never includes
less, and a session has expired if it expires within no time. -/
theorem expiry_saturates (now : Instant) :
    (∀ url id ttl, (withTtl now url id ttl).expiresAt.nanos =
      now.nanos + (min ttl.nanos now.remaining : Nat)) ∧
    (∀ margin, now.add? (.ofDuration margin) = none ↔ now.remaining < margin.nanos) ∧
    (∀ margin deadline, now.add? (.ofDuration margin) = some deadline →
      deadline.nanos = now.nanos + margin.nanos) ∧
    (∀ url id ttl margin, (withTtl now url id ttl).expiresWithin now margin = true ↔
      min ttl.nanos now.remaining ≤ min margin.nanos now.remaining) ∧
    (∀ (s : Session) (margin longer : Duration), margin ≤ longer →
      s.expiresWithin now margin = true → s.expiresWithin now longer = true) ∧
    ∀ s : Session, s.isExpired now = s.expiresWithin now .zero := by
  refine ⟨nanos_expiresAt_withTtl now, now.add?_eq_none_iff,
    fun margin _ => now.nanos_of_add?_eq_some margin, fun url id ttl margin => ?_,
    fun s _ _ => s.expiresWithin_mono now, fun s => s.isExpired_eq now⟩
  rw [expiresWithin_iff, nanos_expiresAt_withTtl]
  omega

theorem endless_expiry :
    Duration.ofMillis (2 ^ 63) ≤ .longest ∧
      (withTtl .earliest "wss://x" "abc" .longest).expiresWithin .earliest .longest = true := by
  obtain ⟨-, -, -, within, mono, -⟩ := expiry_saturates .earliest
  have longer : Duration.ofMillis (2 ^ 63) ≤ .longest := by decide
  refine ⟨longer, mono _ _ _ longer ?_⟩
  rw [within]
  decide

end Session

end MarketFeed
