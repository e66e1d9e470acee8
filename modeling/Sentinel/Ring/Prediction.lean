import Sentinel.Ring.Capacity

/-!
# The next-write check

`_recent_allocations`, `_measured_charge`, `_batch_charge` and `_next_write_refused` of
`agent/media_capture_agent/ring.py`: the space that the sources' next appends need, charged from the
recent real allocations of each source.
-/

namespace Sentinel.Ring

/-- Allocated bytes by segment, as `segment_allocations` lists them. -/
abbrev Allocations := Dict UUID Nat

def recentAllocationSegments : Nat := 8

def minimumSpreadSamples : Nat := 4

def deviationFactor : Rat := 2

def batchHistorySegments : Nat := 16

def minimumMeasuredBatches : Nat := 10

/-- A past allocation of a source, in whole allocation units. -/
structure Sample where
  start : Int
  stop : Int
  size : Nat
  deriving DecidableEq, Repr

/-- What one simulated append of a source is charged and credited. -/
structure Recent where
  mean : Rat
  variance : Rat
  credit : Nat
  cap : Nat
  samples : List Sample

/-- The stored rows of a source under its present profile, the latest first. -/
def recentRows (l : Ledger) (source : UUID) (after : Option Int) : List Segment :=
  ((l.segments.rows.filter fun row =>
    row.source == source && row.state == .stored && after.all fun last => decide (last < row.stop)
    ).insertionSort fun a b => b.stop ≤ a.stop).take (max recentAllocationSegments batchHistorySegments)

/-- The end of the latest refused or unverified segment that can cut the history. -/
def historyCut (l : Ledger) (source : UUID) (after : Option Int) (rows : List Segment) : Option Int :=
  match (rows.map Segment.start).min? with
  | none => none
  | some first => l.maxEnd source fun row =>
      (row.state == .missing || row.state == .uncertain) &&
        (after.all fun last => decide (last < row.stop)) && decide (first < row.stop)

/-- The samples back to the first gap, clock-uncertain row or row of another cadence. -/
def takeSamples (cadence : Int) (cut : Option Int) (sizeOf : Segment → Nat) :
    Option Int → List Segment → List Sample
  | _, [] => []
  | previous, row :: rest =>
    if !row.clockTrusted || decide (row.stop - row.start ≠ cadence) ||
        (cut.any fun last => decide (row.start < last)) ||
        (previous.any fun start => decide (row.stop < start)) then []
    else ⟨row.start, row.stop, sizeOf row⟩ :: takeSamples cadence cut sizeOf (some row.start) rest

/-- `_recent_allocations` for one source. -/
def recentOf (l : Ledger) (after : Option Int) (allocations : Allocations) (unit : Nat)
    (atBound : Bool) (source : UUID) (profile : SegmentProfile) : Recent :=
  let bound := roundUp (profile.segmentBytes false) unit
  let rows := if atBound then [] else recentRows l source after
  let size (row : Segment) : Nat := (allocations.get? row.id).getD bound
  let samples := takeSamples profile.segmentDurationUs (historyCut l source after rows)
    (fun row => min bound (roundUp (size row) unit)) none rows
  let sizes := (rows.take recentAllocationSegments).map size
  match sizes.max?, sizes.min? with
  | some largest, some smallest =>
    let cap := min bound (roundUp largest unit)
    let credit := min cap smallest
    let count := sizes.length
    if count < minimumSpreadSamples then ⟨cap, 0, credit, cap, samples⟩
    else
      let rounded : List Rat := sizes.map fun size => (roundUp size unit : Rat)
      let mean : Rat := rounded.sum / count
      let variance : Rat := (rounded.map fun size => (size - mean) ^ 2).sum / (count - 1)
      ⟨min mean cap, variance, credit, cap, samples⟩
  | _, _ => ⟨bound, 0, bound, bound, []⟩

/-- `_ceil_root`: `ceil(sqrt(square))`. -/
def ceilRoot (square : Rat) : Nat :=
  let square := ⌈square⌉.toNat
  let root := square.sqrt
  root + if root * root < square then 1 else 0

/-- The past batches: the `j`-th most recent samples of every source. -/
def pastBatches (samples : List (List Sample)) : List (List Sample) :=
  (List.range ((samples.map List.length).min?.getD 0)).map fun j =>
    samples.filterMap fun source => source[j]?

/-- The samples of one past batch overlap in time and have one duration. -/
def aligned (past : List Sample) : Bool :=
  match (past.map Sample.start).max?, (past.map Sample.stop).min? with
  | some start, some stop =>
    decide (start < stop) && ((past.map fun sample => sample.stop - sample.start).dedup.length == 1)
  | _, _ => false

def measuredCharge (appends : List (Nat × Recent)) : Option Nat :=
  if appends.length < 2 then none
  else
    let batches := (pastBatches (appends.map fun append => append.2.samples)).takeWhile aligned
    let count := batches.length
    if count < minimumMeasuredBatches then none
    else
      let sizes : List (List Rat) := (List.range appends.length).map fun i =>
        batches.filterMap fun batch => batch[i]?.map fun sample => (sample.size : Rat)
      let means : List Rat := sizes.map fun source => source.sum / count
      let counts := appends.map Prod.fst
      let mean : Rat := (List.zipWith (fun n m => (n : Rat) * m) counts means).sum
      let covariance (i j : Nat) : Rat :=
        (List.zipWith (fun one other => (one - means.getD i 0) * (other - means.getD j 0))
          (sizes.getD i []) (sizes.getD j [])).sum / (count - 1)
      let term (i j : Nat) : Rat :=
        if counts.getD i 0 = 0 ∨ counts.getD j 0 = 0 then 0
        else (if i = j then 1 else 2) * counts.getD i 0 * counts.getD j 0 * max 0 (covariance i j)
      let variance : Rat := ((List.range appends.length).map fun i =>
        (((List.range appends.length).drop i).map fun j => term i j).sum).sum
      let deviation := ceilRoot (variance * deviationFactor ^ 2 *
        ((count + 1) * (count - 1) / (count * (count - 3))))
      some (⌈mean⌉.toNat + deviation)

def batchCharge (appends : List (Nat × Recent)) (unit : Nat) : Nat :=
  let mean : Rat := (appends.map fun append => (append.1 : Rat) * append.2.mean).sum
  let cap := (appends.map fun append => append.1 * append.2.cap).sum
  let deviation := (appends.map fun append =>
    ceilRoot (append.2.variance * (deviationFactor * append.1) ^ 2)).sum
  match measuredCharge appends with
  | some measured => min cap (roundUp measured unit)
  | none => min cap (roundUp (⌈mean⌉.toNat + deviation) unit)

/-! ## The simulation -/

/-- What the simulation of the next appends depends on. -/
structure NextWrite where
  ledger : Ledger
  configuration : Configuration
  allocations : Allocations
  /-- `allocation_unit` of the store. -/
  unit : Nat
  /-- `ledger_headroom`. -/
  headroom : Nat
  free : Nat
  reserve : Nat
  now : Int
  clockTrusted : Bool
  atBound : Bool

namespace NextWrite

variable (w : NextWrite)

def lastEnd (source : UUID) : Option Int := w.ledger.maxEnd source Segment.clockTrusted

/-- `next_append`: the earliest time a source appends its next segment. -/
def nextAppend (source : UUID) (profile : SegmentProfile) : Int :=
  if w.clockTrusted then
    (w.lastEnd source).elim w.now fun last => max w.now (last + profile.segmentDurationUs)
  else w.now

/-- The source is not overdue, so the interval of its next segment is known. -/
def phased (source : UUID) (profile : SegmentProfile) : Bool :=
  w.clockTrusted && (w.lastEnd source).any fun last =>
    decide (w.now ≤ last + profile.segmentDurationUs)

def latest : Int :=
  ((w.configuration.profiles.entries.map fun (source, profile) =>
    w.nextAppend source profile).max?).getD w.now

/-- The time after which media leaves the selected FIFO. -/
def window : Nat :=
  match w.configuration.config.mode with
  | .duration => w.configuration.config.value * second
  | .capacity => pre

/-- The simulated appends of a source at or before `at'`. -/
def countThrough (at' : Int) (source : UUID) (profile : SegmentProfile) : Nat :=
  if w.nextAppend source profile ≤ at' then
    ((at' - w.nextAppend source profile) / (profile.segmentDurationUs : Int) + 1).toNat
  else 0

def countsThrough (at' : Int) : List Nat :=
  w.configuration.profiles.entries.map fun (source, profile) => w.countThrough at' source profile

/-- `_recent_allocations` of a source. -/
def recent (source : UUID) (profile : SegmentProfile) : Recent :=
  recentOf w.ledger (w.configuration.historyAfter.get? source) w.allocations w.unit w.atBound source
    profile

/-- `consumed_by` the appends at or before `at'`. -/
def consumed (at' : Int) : Nat :=
  batchCharge (w.configuration.profiles.entries.map fun (source, profile) =>
    (w.countThrough at' source profile, w.recent source profile)) w.unit

/-- Credits of stored media: it ages out `window` after its end. -/
def storedCredits : List (Int × Nat) :=
  if w.clockTrusted then
    (w.ledger.selectedReclaimable w.latest w.configuration.config).map fun row =>
      (max (row.stop + w.window) w.now, (w.allocations.get? row.id).getD 0)
  else []

/-- A retained incident would protect the segment that ends at `at'`. -/
def protecting (source : UUID) (at' cadence : Int) : Bool :=
  w.ledger.incidents.rows.any fun incident =>
    incident.state.retained && decide (w.now - w.window < incident.stop) &&
      decide (source ∈ incident.sources) && decide (incident.start < at') &&
      decide (at' - cadence < incident.stop)

/-- Credits of simulated appends that age out within the simulation. -/
def simulatedCredits : List (Int × Nat) :=
  if w.clockTrusted && !w.ledger.pendingLoss then
    w.configuration.profiles.entries.filterMap fun (source, profile) =>
      let at' := w.nextAppend source profile
      if w.phased source profile && decide (at' + w.window ≤ w.latest) &&
          !w.protecting source at' profile.segmentDurationUs then
        some (at' + w.window, (w.recent source profile).credit)
      else none
  else []

def credits : List (Int × Nat) :=
  (w.storedCredits ++ w.simulatedCredits).insertionSort fun a b =>
    a.1 < b.1 ∨ (a.1 = b.1 ∧ a.2 ≤ b.2)

def boundaries : List Int :=
  (((w.credits.map Prod.fst).filter fun time => decide (w.now < time) && decide (time ≤ w.latest)
    ).dedup).insertionSort fun a b => a ≤ b

/-- Check the latest append of every interval of constant credit. -/
def scan : List (Int × Int) → List (Int × Nat) → Nat → Bool
  | [], _, _ => false
  | (first, finish) :: rest, credits, reclaim =>
    let due := credits.takeWhile fun credit => credit.1 ≤ first
    let credits := credits.dropWhile fun credit => credit.1 ≤ first
    let reclaim := reclaim + (due.map Prod.snd).sum
    if w.countsThrough (finish - 1) = w.countsThrough (first - 1) then scan rest credits reclaim
    else if w.free + reclaim < w.reserve + roundUp w.headroom w.unit + w.consumed (finish - 1) then true
    else scan rest credits reclaim

/-- `_next_write_refused`. -/
def refused : Bool :=
  w.scan ((w.now :: w.boundaries).zip (w.boundaries ++ [w.latest + 1])) w.credits 0

end NextWrite

end Sentinel.Ring
