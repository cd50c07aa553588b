import EventRelay.Binary64.Basic
import EventRelay.Word

/-!
# Latest latencies

A window keeps the latest samples of a latency, up to a given number, for
percentiles and averages.  There is no average of samples whose sum is not a word.
-/

namespace EventRelay

/-- A window over the latest samples. -/
structure LatencyWindow where
  /-- The samples, oldest first. -/
  samples : List UInt64
  /-- The number of samples that are kept. -/
  maxSamples : Nat
deriving DecidableEq, Repr

namespace LatencyWindow

/-- The standard number of samples that are kept. -/
def standardSize : Nat := 1024

/-- A window without samples.  Room for them is set aside at once, so a window keeps
fewer than `2 ^ 60` samples. -/
def initial (maxSamples : Nat) : LatencyWindow where
  samples := []
  maxSamples := maxSamples

/-- Add a sample.  A full window loses its oldest one first. -/
def record (window : LatencyWindow) (sample : UInt64) : LatencyWindow :=
  let kept :=
    if window.maxSamples ≤ window.samples.length then window.samples.drop 1
    else window.samples
  { window with samples := kept ++ [sample] }

/-- The number of samples. -/
def count (window : LatencyWindow) : Nat :=
  window.samples.length

/-- The place of a percentile among sorted samples: the percentage as a binary
fraction of the last place, rounded down. -/
def place (percent last : Nat) : Nat :=
  let fraction := (Binary64.ofNat percent).divide (.ofNat 100)
  min (fraction.multiply (.ofNat last)).toWord last

/-- The sample at a percentage of the sorted samples. -/
def percentile (window : LatencyWindow) (percent : Nat) : Option UInt64 :=
  let sorted := window.samples.mergeSort (· ≤ ·)
  sorted[place percent (sorted.length - 1)]?

/-- The sum of the samples. -/
def total (window : LatencyWindow) : Except Word.Overflow UInt64 :=
  Word.sum window.samples

/-- The average of the samples, rounded down; there is none without samples. -/
def average (window : LatencyWindow) : Except Word.Overflow (Option UInt64) :=
  if window.samples.isEmpty then .ok none
  else window.total.map fun total => some (total / UInt64.ofNat window.samples.length)

end LatencyWindow
end EventRelay
