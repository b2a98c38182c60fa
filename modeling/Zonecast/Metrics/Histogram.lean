/-
Histograms of durations. Durations are observed in whole milliseconds, and count as zero when they
are negative. A bucket counts the observations that do not exceed its bound, so the counts rise
with the bounds. The sum is kept in seconds, as a floating point number.
-/

namespace Zonecast.Metrics

/-- Observations, sorted by bounds in milliseconds. -/
structure Histogram where
  bounds : List Nat
  /-- For each bound, how many observations do not exceed it. -/
  counts : List UInt64
  count : UInt64
  seconds : Float

namespace Histogram

/-- A histogram without observations. -/
def create (bounds : List Nat) : Histogram :=
  ⟨bounds, bounds.map fun _ => 0, 0, 0⟩

/-- So many bounds, each twice the one before. -/
def doubling (first count : Nat) : List Nat :=
  (List.range count).map fun exponent => first * Nat.pow 2 exponent

/-- The bounds for the time of a commit: from 50 milliseconds. -/
def latencyBounds : List Nat := doubling 50 14

/-- The bounds for ages and delays: from one second. -/
def ageBounds : List Nat := doubling 1000 16

/-- Counts one observation. -/
def observe (millis : Int) (histogram : Histogram) : Histogram :=
  let millis := millis.toNat
  { histogram with
    counts := histogram.bounds.zipWith
      (fun bound count => if millis ≤ bound then count + 1 else count) histogram.counts
    count := histogram.count + 1
    seconds := histogram.seconds + millis.toUInt64.toFloat / 1000 }

end Histogram

end Zonecast.Metrics
