import Sentinel.Ring.Models

/-!
# The ring ledger

The tables of `agent/media_capture_agent/ring_ledger.py` and the reads of
`agent/media_capture_agent/ring.py` that need only them. Each SQL transaction of the ring is one
`Action` on the ledger; `World` runs them.
-/

namespace Sentinel.Ring

/-- The codes of `RingRefused` that begin with `ledger_`. -/
inductive LedgerCode
  | unavailable
  | readonly
  | reserveUnavailable
  | rootReplaced
  | rootOwnership
  | fileReplaced
  | fileOwnership
  deriving DecidableEq, Repr

/-- The codes of `RingRefused`. -/
inductive Refusal
  | invalidNumericValue
  | ownerAuthorizationRequired
  | authenticatedPreserveRequired
  | invalidProfileCollection
  | duplicateSourceIdentity
  | profileExceedsSegmentWriteLimit
  | protectionConfigurationBusy
  | insufficientPreLossCapacity
  | insufficientSimultaneousPrePostBudget
  | selectedTargetExceedsSafeFilesystem
  | capacityTransitionExceedsLimit
  | durationTransitionExceedsFilesystem
  | protectedSegmentDeletionRefused
  | sourceNotConfigured
  | profileBoundViolation
  | clockUncertain
  | nonMonotonicSegment
  | ordinaryCapacityExhausted
  | segmentStorageRefused
  | invalidPreservationReason
  | invalidPreservationWindow
  | incidentNotFound
  /-- `required_bytes` goes with the code. -/
  | insufficientLedgerCapacity (requiredBytes : Nat)
  | mediaStorageUnavailable
  | ledger (code : LedgerCode)
  deriving DecidableEq, Repr

/-- The `state` of a segment. -/
inductive SegmentState
  | writing
  | stored
  | missing
  | uncertain
  | deleting
  deriving DecidableEq, Repr

/-- A row of `segments`: the interval is `[start, stop)`. -/
structure Segment where
  id : UUID
  source : UUID
  start : Int
  stop : Int
  length : Nat
  allocated : Nat
  checksum : Nat
  state : SegmentState
  clockTrusted : Bool
  deriving DecidableEq, Repr

/-- The `state` of an incident; `partialCoverage` is the text `partial`. -/
inductive IncidentState
  | active
  | complete
  | partialCoverage
  | deleting
  | deleted
  deriving DecidableEq, Repr

/-- The `reason` of an incident. -/
inductive IncidentReason
  | mainConnectionLost
  | serverMovement
  | cameraTamper
  deriving DecidableEq, Repr

/-- A row of `incidents`: the window is `[start, stop)`. -/
structure Incident where
  id : UUID
  reason : IncidentReason
  start : Int
  stop : Int
  completed : Option Int
  expires : Option Int
  state : IncidentState
  clockUncertain : Bool
  sources : List UUID
  deriving DecidableEq, Repr

/-- A row of `protection`. -/
structure Edge where
  incident : UUID
  segment : UUID
  deriving DecidableEq, Repr

/-- The ledger. `latestClock`, `pendingLoss` and `configuration` are the rows of `settings`. -/
structure Ledger where
  latestClock : Option Int := none
  pendingLoss : Bool := false
  configuration : Option Configuration := none
  segments : Table Segment.id := .empty
  incidents : Table Incident.id := .empty
  protection : Table (id : Edge → Edge) := .empty

/-- The states in which an incident keeps its evidence. -/
def IncidentState.retained : IncidentState → Bool
  | .active | .complete | .partialCoverage => true
  | .deleting | .deleted => false

def Segment.overlaps (row : Segment) (start stop : Int) : Bool :=
  decide (start < row.stop) && decide (row.start < stop)

/-- `_trusted_profile_row`. -/
def Segment.trustedProfile (row : Segment) (profiles : Profiles) : Bool :=
  row.clockTrusted && (profiles.get? row.source).any fun profile =>
    decide (row.stop - row.start = profile.segmentDurationUs)

namespace Ledger

variable (l : Ledger)

/-- `SELECT * FROM segments ORDER BY end, id`. -/
def rows : List Segment :=
  l.segments.rows.insertionSort fun a b => a.stop < b.stop ∨ (a.stop = b.stop ∧ a.id ≤ b.id)

/-- The edge protects: its incident is not `deleted`. -/
def edgeHolds (edge : Edge) : Bool :=
  l.incidents.rows.any fun incident => incident.id == edge.incident && incident.state != .deleted

/-- `_protected`, and membership in `_protected_segments`. -/
def isProtected (segment : UUID) : Bool :=
  l.protection.rows.any fun edge => edge.segment == segment && l.edgeHolds edge

def linked (incident : UUID) : List Segment :=
  l.segments.rows.filter fun row => decide (⟨incident, row.id⟩ ∈ l.protection.rows)

def reclaimable (now : Int) : List Segment :=
  if l.pendingLoss then []
  else l.rows.filter fun row =>
    decide (row.stop ≤ now - pre) && row.state != .writing && !l.isProtected row.id

def selectedReclaimable (now : Int) (config : RingConfig) : List Segment :=
  match config.mode with
  | .duration => (l.reclaimable now).filter fun row => row.stop ≤ now - (config.value * second : Nat)
  | .capacity => l.reclaimable now

/-- The largest `end` among the rows of a source that meet a condition. -/
def maxEnd (source : UUID) (p : Segment → Bool) : Option Int :=
  ((l.segments.rows.filter fun row => row.source == source && p row).map Segment.stop).max?

/-- The latest end of a chain of intervals that starts at the cursor, for `_loss_anchor`. -/
def extendCursor : Int → List Segment → Int
  | cursor, [] => cursor
  | cursor, row :: rest => extendCursor (if row.start = cursor then row.stop else cursor) rest

def lossAnchor (profiles : Profiles) : Option Int :=
  let byStart := l.rows.insertionSort fun a b => a.start ≤ b.start
  let anchors := profiles.entries.filterMap fun (source, profile) =>
    let matching := byStart.filter fun row =>
      row.source == source && decide (row.stop - row.start = (profile.segmentDurationUs : Int))
    ((matching.filter Segment.clockTrusted).map Segment.stop).max?.map fun cursor =>
      extendCursor cursor matching
  (l.latestClock.toList ++ anchors).max?

end Ledger

/-! ## Bounds of the database -/

def pageBytes : Nat := 4096

/-- `require_rows`; `maximumBytes` is a whole number of pages. -/
def requireRows (maximumBytes segments incidents protections : Nat) : Except Refusal Nat :=
  if IsInteger segments ∧ IsInteger incidents ∧ IsInteger protections then
    let required := pageBytes * (74 + 6 * segments + 4 * incidents + 4 * protections)
    if maximumBytes < required then .error (.insufficientLedgerCapacity required)
    else .ok required
  else .error .invalidNumericValue

/-! ## Transactions -/

/-- One durable change: a committed transaction of the ledger, or a file written to or removed from
the media directory. -/
inductive Action
  /-- `latest_clock` is recorded. -/
  | recordClock (now : Int)
  | setPendingLoss
  | storeConfiguration (configuration : Configuration)
  /-- State and allocation of rows, from recovery or reconciliation. -/
  | setStates (changes : List (UUID × SegmentState × Nat))
  /-- The first transaction of `_remove_segment`. -/
  | markDeleting (segment : UUID)
  /-- The second transaction of `_remove_segment`. -/
  | dropSegment (segment : UUID)
  /-- A new row in state `writing`, linked to incidents; those that were completed become active. -/
  | insertSegment (row : Segment) (incidents : List Incident)
  | markMissing (segment : UUID)
  | markStored (segment : UUID) (allocated : Nat)
  | insertIncident (incident : Incident) (segments : List UUID) (clearingPending : Bool)
  /-- Every active incident becomes clock-uncertain. -/
  | markUncertain
  | completeIncident (incident : UUID) (state : IncidentState) (completed expires : Int)
  | markIncidentDeleting (incident : UUID)
  /-- One edge of an incident under deletion goes; the segment may be marked `deleting` with it. -/
  | unlink (incident segment : UUID) (deleting : Bool)
  | markIncidentDeleted (incident : UUID)
  | writeFile (segment : UUID) (data : List UInt8) (allocated : Nat)
  | deleteFile (segment : UUID)

namespace Ledger

variable (l : Ledger)

/-- `UPDATE segments SET ... WHERE id=?`. -/
def updateSegment (segment : UUID) (f : Segment → Segment) (hf : ∀ row, (f row).id = row.id) :
    Table Segment.id :=
  l.segments.update (fun row => if row.id = segment then f row else row) (by
    intro row
    split_ifs
    · exact hf row
    · rfl)

/-- `UPDATE segments SET state=? WHERE id=?`. -/
def setState (segment : UUID) (state : SegmentState) : Table Segment.id :=
  l.updateSegment segment (fun row => { row with state := state }) fun _ => rfl

/-- `UPDATE segments SET state='stored', allocated=? WHERE id=?`. -/
def setStored (segment : UUID) (allocated : Nat) : Table Segment.id :=
  l.updateSegment segment (fun row => { row with state := .stored, allocated := allocated })
    fun _ => rfl

/-- `UPDATE incidents SET ... WHERE id=?`. -/
def updateIncident (incident : UUID) (f : Incident → Incident) (hf : ∀ row, (f row).id = row.id) :
    Table Incident.id :=
  l.incidents.update (fun row => if row.id = incident then f row else row) (by
    intro row
    split_ifs
    · exact hf row
    · rfl)

/-- `UPDATE incidents SET state=? WHERE id=?`. -/
def setIncidentState (incident : UUID) (state : IncidentState) : Table Incident.id :=
  l.updateIncident incident (fun row => { row with state := state }) fun _ => rfl

/-- `UPDATE incidents SET state=?, completed=?, expires=? WHERE id=?`. -/
def setCompleted (incident : UUID) (state : IncidentState) (completed expires : Int) :
    Table Incident.id :=
  l.updateIncident incident
    (fun row => { row with state := state, completed := some completed, expires := some expires })
    fun _ => rfl

/-- `UPDATE incidents SET clock_uncertain=1 WHERE state='active'`. -/
def uncertainIncidents : Table Incident.id :=
  l.incidents.update
    (fun row => { row with clockUncertain := decide (row.state = .active) || row.clockUncertain })
    fun _ => rfl

/-- The rows of `executemany("UPDATE segments SET state=?, allocated=? WHERE id=?")`. -/
def applyStates (changes : List (UUID × SegmentState × Nat)) : Table Segment.id :=
  l.segments.update
    (fun row =>
      match changes.find? fun change => change.1 = row.id with
      | some (_, state, allocated) => { row with state := state, allocated := allocated }
      | none => row) (by
    intro row
    split <;> rfl)

/-- What an append does to the row of an incident it was linked to; `incident` is the row as it was
read before. -/
def touchIncident (clockTrusted : Bool) (incident row : Incident) : Incident :=
  { row with
    clockUncertain := !clockTrusted || row.clockUncertain
    state := if incident.completed.isSome then .active else row.state
    completed := if incident.completed.isSome then none else row.completed
    expires := if incident.completed.isSome then none else row.expires }

/-- The incidents after an append linked to the given ones. -/
def touchIncidents (clockTrusted : Bool) (incidents : List Incident) : Table Incident.id :=
  l.incidents.update
    (fun row =>
      match incidents.find? fun incident => incident.id = row.id with
      | some incident => touchIncident clockTrusted incident row
      | none => row) (by
    intro row
    split <;> rfl)

def insertEdges (edges : List Edge) : Table (id : Edge → Edge) := edges.foldl Table.insert l.protection

/-- `DELETE FROM protection WHERE incident=? AND segment=?`. -/
def removeEdge (incident segment : UUID) : Ledger :=
  { l with protection := l.protection.delete fun edge =>
      edge.incident == incident && edge.segment == segment }

def apply (l : Ledger) : Action → Ledger
  | .recordClock now => { l with latestClock := some now }
  | .setPendingLoss => { l with pendingLoss := true }
  | .storeConfiguration configuration => { l with configuration := some configuration }
  | .setStates changes => { l with segments := l.applyStates changes }
  | .markDeleting segment => { l with segments := l.setState segment .deleting }
  | .dropSegment segment =>
    { l with
      protection := l.protection.delete fun edge => edge.segment == segment
      segments := l.segments.delete fun row => row.id == segment }
  | .insertSegment row incidents =>
    { l with
      segments := l.segments.insert row
      protection := l.insertEdges (incidents.map fun incident => ⟨incident.id, row.id⟩)
      incidents := l.touchIncidents row.clockTrusted incidents }
  | .markMissing segment => { l with segments := l.setState segment .missing }
  | .markStored segment allocated =>
    { l with segments := l.setStored segment allocated }
  | .insertIncident incident segments clearingPending =>
    { l with
      incidents := l.incidents.insert incident
      protection := l.insertEdges (segments.map fun segment => ⟨incident.id, segment⟩)
      pendingLoss := if clearingPending then false else l.pendingLoss }
  | .markUncertain => { l with incidents := l.uncertainIncidents }
  | .completeIncident incident state completed expires =>
    { l with incidents := l.setCompleted incident state completed expires }
  | .markIncidentDeleting incident => { l with incidents := l.setIncidentState incident .deleting }
  | .unlink incident segment deleting =>
    let l := l.removeEdge incident segment
    if deleting then { l with segments := l.setState segment .deleting } else l
  | .markIncidentDeleted incident => { l with incidents := l.setIncidentState incident .deleted }
  | .writeFile _ _ _ => l
  | .deleteFile _ => l

end Ledger

end Sentinel.Ring
