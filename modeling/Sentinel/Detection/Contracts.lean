import Mathlib.Data.Rat.Defs
import Mathlib.Tactic.DeriveFintype

/-!
# Frames, qualities and results of detectors

What the detectors share (`server/app/detection/foundation/contracts.py`). Identifiers are numbers, a measurement is an
exact fraction.
-/

namespace Sentinel.Detection

/-- What a detector concludes. -/
inductive Observation
  | present
  | absent
  | unknown
  deriving DecidableEq, Repr

/-- What a frame is worth to a detector. -/
inductive Quality
  | sufficient
  | degraded
  | insufficient
  | unknown
  deriving DecidableEq, Repr

/-- Why a result is what it is. -/
inductive Reason
  | evaluated
  | warmup
  | quality
  | modelUnavailable
  | dropped
  | stale
  | overBudget
  | failure
  | discontinuity
  | resourceLimit
  | clock
  | notStarted
  | workerTimeout
  | workerCrashed
  | workerUnavailable
  deriving DecidableEq, Repr

/-- `Detection`: a conclusion, or why there is none. The measurement is left out. -/
structure DetectionResult where
  observation : Observation
  reason : Reason
  evaluated : observation = .unknown ↔ reason ≠ .evaluated
  deriving DecidableEq

/-- `Detection(Observation.UNKNOWN, reason)`. -/
def DetectionResult.unknown (reason : Reason) (h : reason ≠ .evaluated := by decide) : DetectionResult where
  observation := .unknown
  reason := reason
  evaluated := ⟨fun _ => h, fun _ => rfl⟩

/-- `GrayFrame`, and `RgbFrame` with three channels. -/
structure GrayFrame where
  sourceId : Nat
  streamId : Nat
  sequence : Nat
  width : Nat
  height : Nat
  channels : Nat := 1
  pixels : List Nat
  size : pixels.length = width * height * channels
  deriving DecidableEq

def GrayFrame.shape (f : GrayFrame) : Nat × Nat × Nat := (f.width, f.height, f.channels)

/-- The brightness of the pixel in row `y` and column `x`. -/
def GrayFrame.pixel (f : GrayFrame) (x y : Int) : Int := f.pixels.getD (y * f.width + x).toNat 0

end Sentinel.Detection
