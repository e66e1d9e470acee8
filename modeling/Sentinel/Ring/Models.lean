import Sentinel.Lib.Dict
import Sentinel.Lib.Table

/-!
# Segment profiles, ring configuration and coverage

The value types and pure functions of `agent/media_capture_agent/ring_models.py`. Times are integer
microseconds; sizes are bytes.
-/

namespace Sentinel.Ring

def second : Nat := 1000000

/-- `PRE`, the window before a loss. -/
def pre : Nat := 600 * second

/-- `POST`, the window after a loss. -/
def post : Nat := 600 * second

def retention : Nat := 60 * 86400 * second

def maxInteger : Nat := 2 ^ 63 - 1

def IsInteger (value : Int) : Prop := 0 ≤ value ∧ value ≤ maxInteger

instance (value : Int) : Decidable (IsInteger value) :=
  inferInstanceAs (Decidable (0 ≤ value ∧ value ≤ maxInteger))

def roundUp (value unit : Nat) : Nat := (value + unit - 1) / unit * unit

/-- The bytes of a segment of the duration at a bitrate. -/
def bitrateBytes (bitrate durationUs overheadBytes : Nat) : Nat :=
  (bitrate * durationUs + 8 * second - 1) / (8 * second) + overheadBytes

/-- `SegmentProfile`, with the checks of its `__post_init__`. -/
structure SegmentProfile where
  sourceId : UUID
  maximumBitrate : Nat
  expectedBitrate : Nat
  segmentDurationUs : Nat
  overheadBytes : Nat
  bitrates : 1 ≤ expectedBitrate ∧ expectedBitrate ≤ maximumBitrate ∧ maximumBitrate ≤ maxInteger
  cadence : second ≤ segmentDurationUs ∧ segmentDurationUs ≤ pre
  overhead_le : overheadBytes ≤ maxInteger
  bytes_le : bitrateBytes maximumBitrate segmentDurationUs overheadBytes ≤ maxInteger
  deriving DecidableEq

namespace SegmentProfile

def segmentBytes (profile : SegmentProfile) (expected : Bool) : Nat :=
  bitrateBytes (if expected then profile.expectedBitrate else profile.maximumBitrate)
    profile.segmentDurationUs profile.overheadBytes

/-- The segments of one source that can lie in a window: at most two complete boundary segments
straddle an arbitrary window. -/
def segmentsFor (profile : SegmentProfile) (durationUs : Nat) : Nat :=
  (durationUs + profile.segmentDurationUs - 1) / profile.segmentDurationUs + 2

def bytesFor (profile : SegmentProfile) (durationUs unit : Nat) (expected : Bool) : Nat :=
  profile.segmentsFor durationUs * roundUp (profile.segmentBytes expected) unit

end SegmentProfile

/-- The `mode` of a `RingConfig`. -/
inductive RingMode
  | duration
  | capacity
  deriving DecidableEq, Repr

/-- `RingConfig`, with the checks of its `__post_init__`. -/
structure RingConfig where
  mode : RingMode
  value : Nat
  bounded : 1 ≤ value ∧ value ≤ maxInteger
  holdsPre : mode = .duration → 600 ≤ value
  deriving DecidableEq

/-- The configured profiles by source, in the order they were given. -/
abbrev Profiles := Dict UUID SegmentProfile

/-- What the `configuration` setting stores, and the ring keeps in memory. -/
structure Configuration where
  config : RingConfig
  profiles : Profiles
  historyAfter : Dict UUID Int

/-! ## Intervals -/

def pairLe (a b : Int × Int) : Bool := a.1 < b.1 || (a.1 == b.1 && decide (a.2 ≤ b.2))

/-- Add an interval to merged ones, the latest of which comes first. -/
def mergeStep (merged : List (Int × Int)) (interval : Int × Int) : List (Int × Int) :=
  match merged with
  | [] => [interval]
  | (start, stop) :: rest =>
    if interval.1 ≤ stop then (start, max interval.2 stop) :: rest else interval :: merged

/-- The gaps between a cursor, the intervals that follow it, and the end. -/
def gapsFrom (stop : Int) : Int → List (Int × Int) → List (Int × Int)
  | cursor, [] => if cursor < stop then [(cursor, stop)] else []
  | cursor, (left, right) :: rest =>
    (if cursor < left then [(cursor, left)] else []) ++ gapsFrom stop right rest

/-- `intervals_and_gaps`: the union coverage of one source. -/
def intervalsAndGaps (intervals : List (Int × Int)) (start stop : Int) :
    List (Int × Int) × List (Int × Int) :=
  let clipped := (intervals.insertionSort fun a b => pairLe a b).map fun interval =>
    (max interval.1 start, min interval.2 stop)
  let merged := ((clipped.filter fun interval => interval.1 < interval.2).foldl mergeStep []).reverse
  (merged, gapsFrom stop start merged)

end Sentinel.Ring
