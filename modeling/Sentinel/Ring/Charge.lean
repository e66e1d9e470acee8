import Sentinel.Ring.Prediction
import Mathlib.Analysis.SpecialFunctions.Sqrt

/-!
# The exact charge

What `_batch_charge` rounds up: the sum of the means plus two deviations of that sum, over the real numbers and with every
pair of sources counted once in each order. The past batches of synchronized sources give their means and covariances.
-/

namespace Sentinel.Ring

/-- What `_recent_allocations` computes of a source. -/
structure Recent.Wf (unit : Nat) (r : Recent) : Prop where
  mean_nonneg : 0 ≤ r.mean
  mean_le : r.mean ≤ r.cap
  variance_nonneg : 0 ≤ r.variance
  dvd_cap : unit ∣ r.cap

/-- The number of past batches, the latest first, up to the first that is not aligned. -/
def alignedBatches (samples : List (List Sample)) : Nat := ((pastBatches samples).takeWhile aligned).length

namespace Recent

/-- The sizes of the last `n` samples of a source. -/
def column (n : Nat) (r : Recent) : List Rat := (r.samples.take n).map fun sample => (sample.size : Rat)

/-- Their mean. -/
def measuredMean (n : Nat) (r : Recent) : Rat := (r.column n).sum / n

/-- The sample covariance of two sources over their last `n` samples. -/
def covariance (n : Nat) (r r' : Recent) : Rat :=
  (List.zipWith (fun one other => (one - r.measuredMean n) * (other - r'.measuredMean n)) (r.column n)
    (r'.column n)).sum / (n - 1)

end Recent

/-- The variance of the appends together; a negative covariance is not credited. -/
def measuredVariance (n : Nat) (appends : List (Nat × Recent)) : Rat :=
  (appends.map fun a => (appends.map fun b => (a.1 : Rat) * b.1 * max 0 (a.2.covariance n b.2)).sum).sum

/-- The sources are synchronized, with enough history. -/
def Measured (appends : List (Nat × Recent)) : Prop :=
  2 ≤ appends.length ∧ minimumMeasuredBatches ≤ alignedBatches (appends.map fun a => a.2.samples)

instance (appends : List (Nat × Recent)) : Decidable (Measured appends) :=
  inferInstanceAs (Decidable (_ ∧ _))

/-- The charge before any rounding. -/
noncomputable def exactCharge (appends : List (Nat × Recent)) : ℝ :=
  let n := alignedBatches (appends.map fun a => a.2.samples)
  if Measured appends then
    ((appends.map fun a => (a.1 : Rat) * a.2.measuredMean n).sum : ℚ) +
      2 * √(measuredVariance n appends * (1 + 1 / n) * ((n - 1) / (n - 3)))
  else
    ((appends.map fun a => (a.1 : Rat) * a.2.mean).sum : ℚ) +
      2 * (appends.map fun a => (a.1 : ℝ) * √(a.2.variance)).sum

/-- Every append at the recent maximum of its source. -/
def capCharge (appends : List (Nat × Recent)) : Nat := (appends.map fun a => a.1 * a.2.cap).sum

end Sentinel.Ring
