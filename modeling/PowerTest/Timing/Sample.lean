import PowerTest.Failure
import PowerTest.Query

/-!
# Timing samples

The power metric is built from the elapsed times of the timed operations: their geometric mean,
always the twenty-second root of their product, divides an hour's worth of the scale factor.
-/

namespace PowerTest.Timing

/-- One timed operation. -/
structure Sample where
  label : String
  /-- Elapsed milliseconds. -/
  elapsed : Float

/-- Elapsed seconds. -/
def Sample.seconds (sample : Sample) : Float := sample.elapsed / 1000.0

/-- The product of the elapsed seconds. -/
def product (samples : List Sample) : Float :=
  samples.foldl (fun known sample => known * sample.seconds) 1.0

/-- The sum of the elapsed seconds; of no samples, negative zero. -/
def total (samples : List Sample) : Float :=
  samples.foldl (fun known sample => known + sample.seconds) (-0.0)

/-- The first sample that no geometric mean can hold: one that is zero or below. -/
def degenerate? (samples : List Sample) : Option Sample :=
  samples.find? fun sample => sample.elapsed ≤ 0.0

/-- The geometric mean of the samples in seconds. -/
def geometricMean (samples : List Sample) : Except Failure Float :=
  match degenerate? samples with
  | some sample => .error (.degenerateTiming sample.label sample.elapsed)
  | none => .ok ((product samples).pow (1.0 / Float.ofNat queryCount))

/-- The power metric for a geometric mean and a scale factor. -/
def powerOfMean (mean scaleFactor : Float) : Float :=
  3600.0 * scaleFactor / mean

/-- The power metric for samples and a scale factor. -/
def power (samples : List Sample) (scaleFactor : Float) : Except Failure Float :=
  (geometricMean samples).map fun mean => powerOfMean mean scaleFactor

/-- Whether there is one sample for each query. -/
def isComplete (samples : List Sample) : Bool := samples.length == queryCount

end PowerTest.Timing
