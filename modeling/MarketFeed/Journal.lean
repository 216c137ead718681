import MarketFeed.FeedError
import MarketFeed.Metric
import MarketFeed.Statistics

/-!
# The journal of a feed

What a feed records about itself: statistics, metric samples and the errors that were handed to
the listener for errors. `report` is the only way in which an error gets there.
-/

namespace MarketFeed

/-- What listens to errors. A listener that panics is contained: the error has reached it, and
nothing else notices. -/
inductive Listener where
  | absent
  | returning
  | panicking
  deriving DecidableEq, Repr, Inhabited

structure Journal where
  statistics : Statistics := {}
  /-- All samples, oldest first. -/
  samples : List Sample := []
  listener : Listener := .absent
  /-- The errors that the listener was given, oldest first. -/
  heard : List FeedError := []
  deriving Inhabited

namespace Journal

def sample (j : Journal) (s : Sample) : Journal := { j with samples := j.samples ++ [s] }

def modifyStatistics (j : Journal) (f : Statistics → Statistics) : Journal :=
  { j with statistics := f j.statistics }

def report (j : Journal) (e : FeedError) : Journal :=
  let counted := (j.modifyStatistics Statistics.countError).sample (.error e.label)
  if j.listener = .absent then counted else { counted with heard := counted.heard ++ [e] }

@[simp]
theorem report_statistics (j : Journal) (e : FeedError) :
    (j.report e).statistics = j.statistics.countError := by
  unfold report
  split <;> rfl

@[simp]
theorem report_samples (j : Journal) (e : FeedError) :
    (j.report e).samples = j.samples ++ [.error e.label] := by
  unfold report
  split <;> rfl

theorem report_heard (j : Journal) (e : FeedError) :
    (j.report e).heard = if j.listener = .absent then j.heard else j.heard ++ [e] := by
  unfold report
  split <;> rfl

def resetStatistics (j : Journal) : Journal := { j with statistics := {} }

end Journal

end MarketFeed
