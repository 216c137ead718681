import MarketFeed.Metric
import Mathlib

/-!
# Readings of series

What a series reads after a list of samples: a counter the number of its samples, a gauge what its
last one says. Of the series that have no labels, no other series has the name.
-/

namespace MarketFeed.Sample

def reading? (name : String) (samples : List Sample) : Option Nat :=
  (totals samples).lookup name

def value (s : Sample) (samples : List Sample) : Nat :=
  ((totals samples).lookup s.seriesName).getD 0

theorem totals_snoc (samples : List Sample) (s : Sample) :
    totals (samples ++ [s]) = totals.record (totals samples) s := by
  unfold totals
  rw [List.foldl_append]
  rfl

theorem lookup_record (acc : List (String × Nat)) (s : Sample) (n : String) :
    (totals.record acc s).lookup n =
      if n = s.seriesName then some (s.apply ((acc.lookup n).getD 0)) else acc.lookup n := by
  induction acc with
  | nil =>
    by_cases h : n = s.seriesName <;> simp [totals.record, h]
  | cons entry rest ih =>
    obtain ⟨m, v⟩ := entry
    unfold totals.record
    by_cases hm : m = s.seriesName
    · by_cases h : n = s.seriesName
      · simp [hm, h]
      · simp [hm, h, beq_false_of_ne h, List.lookup_cons]
    · by_cases h : n = m
      · simp [h, hm]
      · simp [hm, beq_false_of_ne h, List.lookup_cons, ih]

theorem reading?_snoc (name : String) (samples : List Sample) (s : Sample) :
    reading? name (samples ++ [s]) =
      if name = s.seriesName then some (s.apply ((reading? name samples).getD 0))
      else reading? name samples := by
  unfold reading?
  rw [totals_snoc, lookup_record]

theorem value_snoc (s : Sample) (samples : List Sample) (t : Sample) :
    s.value (samples ++ [t]) =
      if s.seriesName = t.seriesName then t.apply (s.value samples) else s.value samples := by
  unfold value
  rw [totals_snoc, lookup_record]
  by_cases h : s.seriesName = t.seriesName
  · simp [h]
  · simp [h]

theorem value_eq_countP {samples : List Sample} (h : ∀ s ∈ samples, s.gauge? = none) (s : Sample) :
    s.value samples = samples.countP (·.seriesName = s.seriesName) := by
  -- From the end, since totals are kept up sample by sample.
  induction samples using List.reverseRecOn with
  | nil => rfl
  | append_singleton samples last ih =>
    have hl : last.gauge? = none := h last (by simp)
    have ih := ih fun s hs => h s (by simp [hs])
    rw [value_snoc, List.countP_append, ← ih]
    by_cases hn : s.seriesName = last.seriesName
    · simp [hn, apply, hl]
    · simp [hn, Ne.symm hn]

theorem value_append {s : Sample} (hs : s.gauge? = none) (samples : List Sample) {more : List Sample}
    (h : ∀ t ∈ more, s.seriesName = t.seriesName → t = s) :
    s.value (samples ++ more) = s.value samples + more.count s := by
  induction more using List.reverseRecOn with
  | nil => simp
  | append_singleton more last ih =>
    have ih := ih fun t ht => h t (by simp [ht])
    rw [← List.append_assoc, value_snoc, List.count_append, ih]
    by_cases hn : s.seriesName = last.seriesName
    · obtain rfl := h last (by simp) hn
      simp [apply, hs]
      omega
    · have hl : last ≠ s := fun e => hn (e ▸ rfl)
      simp [hn, hl]

/-! ## Series without labels -/

theorem seriesName_of_unlabelled {s : Sample} (h : s.series.2 = []) : s.seriesName = s.series.1 := by
  simp [seriesName, h]

theorem brace_mem_seriesName {s : Sample} (h : s.series.2 ≠ []) :
    '\x7b' ∈ s.seriesName.toList := by
  simp [seriesName, h]

theorem series_eq {s t : Sample} (hs : s.series.2 = []) (h : s.seriesName = t.seriesName) :
    s.series = t.series := by
  have plain : ∀ u : Sample, '\x7b' ∉ u.series.1.toList := by
    intro u
    cases u <;> simp [series]
  have ht : t.series.2 = [] := by
    by_contra hl
    have brace := brace_mem_seriesName hl
    rw [← h, seriesName_of_unlabelled hs] at brace
    exact plain s brace
  rw [seriesName_of_unlabelled hs, seriesName_of_unlabelled ht] at h
  exact Prod.ext h (hs.trans ht.symm)

theorem reconnect_of_seriesName {t : Sample} (h : reconnect.seriesName = t.seriesName) :
    t = reconnect := by
  have hs := series_eq rfl h
  cases t <;> simp [series] at hs
  rfl

theorem value_reconnect_append (samples more : List Sample) :
    reconnect.value (samples ++ more) = reconnect.value samples + more.count reconnect :=
  value_append rfl samples fun _ _ => reconnect_of_seriesName

end MarketFeed.Sample
