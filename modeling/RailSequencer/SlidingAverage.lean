/-!
# Averages over a sliding window

The average of the last samples, kept as a running sum: a sample that leaves the window is
subtracted before the new one is added. The type of the numbers is open, so that the same
definition serves for rounded and for exact arithmetic.
-/

namespace RailSequencer

/-- Samples in a full window. -/
def SlidingAverage.window : Nat := 10

/-- A window of samples with their running sum. -/
structure SlidingAverage (α : Type) where
  samples : Vector α SlidingAverage.window
  /-- The slot of the next sample, which in a full window holds the oldest one. -/
  next : Fin SlidingAverage.window
  sum : α
  count : Nat

namespace SlidingAverage

variable {α : Type} [NatCast α] [Add α] [Sub α] [Div α]

def empty : SlidingAverage α where
  samples := Vector.replicate window ((0 : Nat) : α)
  next := ⟨0, by decide⟩
  sum := ((0 : Nat) : α)
  count := 0

/-- Take a sample into the window. -/
def add (average : SlidingAverage α) (sample : α) : SlidingAverage α :=
  let full := window ≤ average.count
  { samples := average.samples.set average.next sample
    next := ⟨(average.next + 1) % window, Nat.mod_lt _ (by decide)⟩
    sum := (if full then average.sum - average.samples[average.next] else average.sum) + sample
    count := if full then average.count else average.count + 1 }

/-- The mean of the samples in the window, and zero without any. -/
def value (average : SlidingAverage α) : α :=
  if average.count = 0 then ((0 : Nat) : α) else average.sum / (average.count : α)

end SlidingAverage

end RailSequencer
