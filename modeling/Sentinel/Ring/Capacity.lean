import Sentinel.Ring.Ledger

/-!
# Ledger reservations

`_horizon_us`, `_future_segment_rows` and `_ledger_capacity` of
`agent/media_capture_agent/ring.py`: the rows of the ledger that the selected ring and the active
incidents may still need, against the configured size of the database.
-/

namespace Sentinel.Ring

/-- The largest value in `[left, right]` found by bisection, where `left` fits; `fuel` bounds the
number of halvings. -/
def bisect (fits : Nat → Bool) : Nat → Nat → Nat → Nat
  | 0, left, _ => left
  | fuel + 1, left, right =>
    if left < right then
      let middle := (left + right + 1) / 2
      if fits middle then bisect fits fuel middle right else bisect fits fuel left (middle - 1)
    else left

def segmentCount (profiles : Profiles) (durationUs : Nat) : Nat :=
  (profiles.values.map fun profile => profile.segmentsFor durationUs).sum

/-- The bytes of the ordinary ring over a duration at the expected bitrate fit the capacity. -/
def horizonFits (value : Nat) (profiles : Profiles) (durationUs : Nat) : Bool :=
  (profiles.values.map fun profile =>
    profile.segmentsFor durationUs * profile.segmentBytes true).sum ≤ value

/-- `_horizon_us`: the time horizon that bounds ordinary rows. -/
def horizonUs (config : RingConfig) (profiles : Profiles) : Nat :=
  match config.mode with
  | .duration => config.value * second
  | .capacity =>
    -- each profile alone bounds the horizon, so this is a valid ceiling
    let right := max pre (((profiles.values.map fun profile =>
      (config.value / profile.segmentBytes true - 2) * profile.segmentDurationUs).min?).getD 0)
    if horizonFits config.value profiles pre then
      bisect (horizonFits config.value profiles) (right - pre) pre right
    else pre

/-- The window of an incident, with its sources. -/
structure Window where
  start : Int
  stop : Int
  sources : List UUID
  deriving DecidableEq, Repr

/-- The window of a row of `incidents`. -/
def Incident.window (incident : Incident) : Window := ⟨incident.start, incident.stop, incident.sources⟩

/-- The windows of a source, merged where they touch or overlap. -/
def mergedWindows (source : UUID) (windows : List Window) : List (Int × Int) :=
  let sorted := windows.insertionSort fun a b => pairLe (a.start, a.stop) (b.start, b.stop)
  ((sorted.filter fun window => decide (source ∈ window.sources)).map fun window =>
    (window.start, window.stop)).foldl mergeStep []

/-- The segments that merged windows may hold. -/
def windowTarget (profile : SegmentProfile) (merged : List (Int × Int)) : Int :=
  let cadence : Int := profile.segmentDurationUs
  (merged.map fun window => (window.2 - window.1 + cadence - 1) / cadence + 2).sum

/-- The compatible rows of a source that lie in merged windows. -/
def windowPresent (source : UUID) (profiles : Profiles) (merged : List (Int × Int))
    (existing : List Segment) : List UUID :=
  ((existing.filter fun row => row.source == source && row.trustedProfile profiles &&
    merged.any fun window => row.overlaps window.1 window.2).map Segment.id).dedup

/-- `_future_segment_rows` for one source. -/
def futureRowsOf (profiles : Profiles) (windows : List Window) (existing : List Segment)
    (source : UUID) (profile : SegmentProfile) : Nat :=
  let merged := mergedWindows source windows
  (windowTarget profile merged - (windowPresent source profiles merged existing).length).toNat

def futureSegmentRows (profiles : Profiles) (windows : List Window) (existing : List Segment) : Nat :=
  (profiles.entries.map fun (source, profile) =>
    futureRowsOf profiles windows existing source profile).sum

/-- The row is ordinary media of the present profiles: stored, allocated and trusted. -/
def Segment.compatible (row : Segment) (profiles : Profiles) : Bool :=
  row.state == .stored && decide (512 ≤ row.allocated) && row.trustedProfile profiles

/-- What `_ledger_capacity` adds for a request. -/
structure Request where
  /-- The window of an incident to be admitted. -/
  proposal : Option (Int × Int) := none
  additionalSegments : Nat := 0
  additionalProtections : Nat := 0
  reactivating : List Incident := []

namespace Ledger

variable (l : Ledger)

def activeIncidents : List Incident := l.incidents.rows.filter fun row => row.state == .active

/-- The rows that a proposed window would protect. -/
def matching (profiles : Profiles) (proposal : Int × Int) : List Segment :=
  l.rows.filter fun row =>
    row.overlaps proposal.1 proposal.2 && (profiles.get? row.source).isSome

/-- The number of protected rows. -/
def protectedCount : Nat := (l.rows.filter fun row => l.isProtected row.id).length

/-- The number of unprotected rows that are not ordinary media of the profiles. -/
def carryoverCount (profiles : Profiles) : Nat :=
  (l.rows.filter fun row => !l.isProtected row.id && !row.compatible profiles).length

/-- The rows of `segments` that `_ledger_capacity` reserves. -/
def reservedSegments (config : RingConfig) (profiles : Profiles) (request : Request) : Nat :=
  let ring := l.protectedCount + l.carryoverCount profiles +
    max (l.rows.length - l.protectedCount - l.carryoverCount profiles)
      (segmentCount profiles (horizonUs config profiles)) + request.additionalSegments
  let counted := l.activeIncidents ++ request.reactivating
  let windows := counted.map Incident.window
  let existing := (counted.map fun incident => l.linked incident.id).flatten
  match request.proposal with
  | none => ring + futureSegmentRows profiles windows existing
  | some proposal =>
    let matching := l.matching profiles proposal
    ring + (matching.filter fun row => !l.isProtected row.id && row.compatible profiles).length +
      futureSegmentRows profiles (windows ++ [⟨proposal.1, proposal.2, profiles.keys⟩])
        (existing ++ matching)

/-- The rows of `incidents` that `_ledger_capacity` reserves. -/
def reservedIncidents (request : Request) : Nat :=
  l.incidents.rows.length + request.proposal.elim 0 fun _ => 1

/-- The rows of `protection` that `_ledger_capacity` reserves. -/
def reservedProtections (profiles : Profiles) (request : Request) : Nat :=
  l.protection.rows.length + request.additionalProtections +
    ((l.activeIncidents ++ request.reactivating).map fun incident =>
      futureSegmentRows profiles [incident.window] (l.linked incident.id)).sum +
    request.proposal.elim 0 fun proposal =>
      let matching := l.matching profiles proposal
      matching.length +
        futureSegmentRows profiles [⟨proposal.1, proposal.2, profiles.keys⟩] matching

def ledgerCapacity (maximumBytes : Nat) (config : RingConfig) (profiles : Profiles)
    (request : Request) : Except Refusal Nat :=
  requireRows maximumBytes (l.reservedSegments config profiles request)
    (l.reservedIncidents request) (l.reservedProtections profiles request)

end Ledger

end Sentinel.Ring
