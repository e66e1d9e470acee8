import Sentinel.Recording.Store

/-!
# Admission of media

`MainStoragePolicy.admit` of `server/app/storage/policy.py`, which runs the retention of
`server/app/storage/retention.py` on the store that calls it, and the operations of the store that are
admitted by it: `append`, `start_event` and `start_manual`. A run is a sequence of operations of the store;
the turns of the environment and the identities that `uuid4` draws come with the operation.
-/

namespace Sentinel.Recording

open Program

variable (u : Setup)

/-! ## Retention -/

def retentionCandidates (beforeMs : Option Int) (limit : Nat) : StoreM (List RecordingRow) := do
  check
  require (1 ≤ limit ∧ limit ≤ 1000) .value
  require (∀ before ∈ beforeMs, 0 ≤ before ∧ before < 2 ^ 63) .value
  query fun t => (t.candidates beforeMs).take limit

def deleteCandidates (beforeMs : Option Int) (limit : Nat) : StoreM Nat := do
  let rows ← retentionCandidates beforeMs limit
  forEach (fun row => do
    let _ ← deleteRecording u row.id false
    return) rows
  return rows.length

def dayMs : Int := 86400000

def expired (nowMs : Int) (limit : Nat) : StoreM Nat := do
  require (0 ≤ nowMs) .value
  let cutoff := nowMs - u.recordingDays * dayMs
  if 0 ≤ cutoff then deleteCandidates u (some cutoff) limit else return 0

def oldest (limit : Nat) : StoreM Nat := deleteCandidates u none limit

/-! ## The policy -/

/-- What `_read` returns, without the bytes of starred recordings. -/
structure Reading where
  space : Space
  used : Nat
  critical : Nat
  deriving DecidableEq, Repr

/-- `_read`. -/
def readUsage : StoreM Reading :=
  handle (do
      let space ← sample
      let used ← usageBytes false false
      let critical ← usageBytes false true
      let _ ← usageBytes true false
      require (0 ≤ space.available ∧ 0 ≤ space.total ∧ space.available ≤ space.total) .value
      return ⟨space, used, critical⟩)
    fun f =>
      if f.caught then do
        transition u .hardStop
        fail (.recording .storageHardStop)
      else fail f

def Policy.within (p : Policy) (space : Space) (used requestTotal requestMedia : Int) (recovering : Bool) :
    Bool :=
  let freeAfter := space.available - p.reservedTotal - requestTotal
  let useAfter := used + p.reservedMedia + requestMedia
  if recovering then
    decide (u.storage.recoveryFreeBytes ≤ freeAfter) && decide (useAfter ≤ u.storage.recoveryAllocationBytes)
  else decide (u.storage.pressureFreeBytes ≤ freeAfter) && decide (useAfter < u.storage.recordingLimitBytes)

def stateFor (space : Space) (used : Nat) : StoreM Unit := do
  let p ← read World.policy
  if space.available - p.reservedTotal < u.storage.hardReserveBytes then transition u .hardStop
  else if p.cleanupFailed = true ∨ p.within u space used 0 0 false = false then transition u .pressure
  else if p.state ≠ .normal ∧ p.within u space used 0 0 true = true then transition u .normal
  else pure ()

def guardMetadata : StoreM Unit := do
  let reading ← readUsage u
  let p ← read World.policy
  if reading.space.available - p.reservedTotal - u.storage.writeOverheadBytes < u.storage.hardReserveBytes then do
    transition u .hardStop
    fail (.recording .storageHardStop)
  else pure ()

/-- The loop of `admit` that deletes the oldest recordings, one at a time. -/
def reclaimOldest (total media : Int) (recovering : Bool) : Nat → StoreM Unit
  | 0 => pure ()
  | rounds + 1 => do
    let reading ← readUsage u
    let p ← read World.policy
    if p.within u reading.space reading.used total media recovering then pure ()
    else do
      let deleted ← oldest u 1
      if deleted = 0 then pure () else reclaimOldest total media recovering rounds

/-- The reclamation of `admit`. -/
def reclaim (total media : Int) : StoreM Unit :=
  ensure (do
      modify fun w => { w with reclaiming := true }
      -- the clock
      let t ← turn
      let _ ← expired u t.now u.storage.cleanupBatchSize
      let state ← read fun w => w.policy.state
      reclaimOldest u total media (decide (state ≠ .normal)) u.storage.cleanupBatchSize)
    (modify fun w => { w with reclaiming := false })

/-- What `admit` decides once the request is reserved. -/
def decideAdmission (reading : Reading) (total : Int) (media : Nat) (critical : Bool) : StoreM Unit := do
  stateFor u reading.space reading.used
  let p ← read World.policy
  require (p.state ≠ .hardStop) (.recording .storageHardStop)
  require (p.state = .pressure → critical = true ∧ p.cleanupFailed = false ∧
    reading.critical + total ≤ u.storage.criticalAllowanceBytes ∧
    (reading.used + media : Int) ≤ u.storage.recordingLimitBytes + u.storage.criticalAllowanceBytes)
    (.recording .storagePressure)

/-- `admit`. -/
def admitMedia (media : Nat) (critical : Bool) : StoreM Unit := do
  note fun w => .admits .media w.policy.reservation
  let held ← read fun w => w.policy.reservation
  require ((media : Int) ≤ u.storage.maxRequestBytes ∧ held = false) (.recording .storageInvalidReservation)
  let total := media + u.storage.writeOverheadBytes
  guardMetadata u
  setPolicy fun p => { p with cleanupFailed := false }
  handle (reclaim u total media)
    fun f => if f.caught then setPolicy fun p => { p with cleanupFailed := true } else fail f
  let reading ← readUsage u
  setPolicy fun p => { p with reservation := true, reservedMedia := media, reservedTotal := total }
  handle (decideAdmission u reading total media critical)
    fun f => do
      release
      fail f
  note fun w => .admitted .media w.lastSample w.policy.reservedTotal

/-- An operation under the reservation of an admitted request. -/
def admittedOperation {α : Type} (media : Nat) (critical : Bool) (body : StoreM α) : StoreM α := do
  admitMedia u media critical
  modify fun w => { w with reservationActive := true }
  ensure body releaseReservation

/-! ## Appending a segment -/

/-- `Segment`. Codec and container are the validator's. -/
structure Segment where
  source : UUID
  stream : UUID
  sequence : Int
  startMs : Int
  endMs : Int
  byteLength : Nat
  deriving DecidableEq, Repr

def Segment.Valid (s : Segment) (limits : Limits) : Prop :=
  (0 ≤ s.sequence ∧ s.sequence < 2 ^ 63) ∧ (0 ≤ s.startMs ∧ s.endMs < 2 ^ 63) ∧
    (0 < s.endMs - s.startMs ∧ s.endMs - s.startMs ≤ limits.maxSegmentMs) ∧
    0 < s.byteLength ∧ s.byteLength ≤ limits.maxSegmentBytes

instance (s : Segment) (limits : Limits) : Decidable (s.Valid limits) :=
  inferInstanceAs (Decidable (_ ∧ _))

/-- The journal entry of a segment. -/
def Segment.row (s : Segment) (id : UUID) (critical : Bool) : SegmentRow where
  id := id
  source := s.source
  stream := s.stream
  sequence := s.sequence
  startMs := s.startMs
  endMs := s.endMs
  byteLength := s.byteLength
  critical := critical

/-- The discontinuity before a segment that does not follow the cursor. -/
def Segment.breaks (s : Segment) (prior : Option Cursor) : Option Discontinuity :=
  match prior with
  | none => none
  | some p =>
    if s.stream ≠ p.stream ∨ s.sequence ≠ p.sequence + 1 then some ⟨s.source, p.endMs, s.startMs⟩ else none

def publish (id : UUID) (segment : Segment) (active : List RecordingRow) (prior : Option Cursor) : StoreM Unit :=
  transaction u do
    exec (.publish id)
    exec (.setCursor ⟨segment.source, segment.stream, segment.sequence, segment.endMs, true⟩)
    forEach (fun gap => exec (.noteSource gap)) (segment.breaks prior).toList
    forEach (fun row : RecordingRow => do
      exec (.link row.id [id])
      forEach (fun gap => exec (.note [{ gap with owner := row.id }])) (segment.breaks prior).toList) active

/-- The body of `append` once the segment is admitted. -/
def writeSegment (id : UUID) (segment : Segment) (active : List RecordingRow) (prior : Option Cursor)
    (critical : Bool) : StoreM UUID :=
  handle (do
      transaction u (exec (.journal (segment.row id critical)))
      -- `_write`
      risk
      publish u id segment active prior
      trim u
      return id)
    fun f => do
      modify fun w => { w with failed := true }
      fail (if f = .os ∨ f = .sqlite then .recording .writeFailed else f)

/-- `append`; `id` is drawn by `uuid4`. -/
def append (segment : Segment) (id : UUID) : StoreM UUID := do
  check
  require (segment.Valid u.limits) .value
  -- the validator
  risk
  let pending ← query fun t => t.segments.rows.any (·.state == .pending)
  require (pending = false) (.recording .recoveryRequired)
  let sources ← query fun t => t.cursors.rows.countP Cursor.active
  let known ← query fun t => t.cursors.rows.any fun c => c.source == segment.source && c.active
  require (known = true ∨ sources < u.limits.maxSources) (.recording .sourceLimit)
  let prior ← query fun t => t.cursors.find? segment.source
  require (∀ p ∈ prior, p.endMs ≤ segment.startMs ∧ (segment.stream = p.stream → p.sequence < segment.sequence))
    (.recording .timelineRegression)
  let active ← query fun t => t.recordings.rows.filter fun r => r.source == segment.source &&
    r.status == .active && overlaps r.startMs r.targetEndMs segment.startMs segment.endMs
  forEach (fun row : RecordingRow => do
    let count ← query fun t => t.links.countP (·.recording == row.id)
    require (count < u.limits.maxSegmentsPerRecording) (.recording .segmentLimit)) active
  let critical := active.any RecordingRow.critical
  admittedOperation u segment.byteLength critical (writeSegment u id segment active prior critical)

/-! ## Starting recordings -/

def maxRecordingMs : Int := 1200000

/-- The loop of `_start`, for one source. -/
def startSource (startMs endMs : Int) (event : Option UUID) (critical : Bool) (source id : UUID) : StoreM Unit := do
  let count ← query fun t => (t.spooled source startMs endMs).length
  require (count ≤ u.limits.maxSegmentsPerRecording) (.recording .segmentLimit)
  exec (.insertRecording {
    id := id
    source := source
    event := event
    startMs := startMs
    targetEndMs := endMs
    critical := critical })
  let spool ← query fun t => (t.spooled source startMs endMs).map SegmentRow.id
  exec (.link id spool)
  let gaps ← query fun t => t.sourceDiscontinuities.filter fun d => d.owner == source &&
    overlaps d.startMs d.endMs startMs endMs
  exec (.note (gaps.map fun d => { d with owner := id }))

/-- The body of `_start` once it is admitted. -/
def startRecordings (sources identities : List UUID) (startMs endMs : Int) (event : Option UUID)
    (critical : Bool) : StoreM (List UUID) :=
  transaction u do
    let exists_ ← query fun t => event.any fun e => t.recordings.rows.any (·.event == some e)
    require (exists_ = false) (.recording .eventExists)
    let count ← query fun t => t.recordings.rows.countP (·.status == .active)
    require (count + sources.length ≤ u.limits.maxActiveRecordings) (.recording .activeLimit)
    forEach (fun p => startSource u startMs endMs event critical p.1 p.2) (sources.zip identities)
    return identities

/-- `_start`; `identities` are drawn by `uuid4`. -/
def start (sources : List UUID) (startMs endMs : Int) (event : Option UUID) (critical : Bool)
    (identities : Nat → UUID) : StoreM (List UUID) := do
  check
  require (0 ≤ startMs ∧ endMs < 2 ^ 63 ∧ sources ≠ [] ∧ sources.length ≤ u.limits.maxSources ∧ sources.Nodup) .value
  admittedOperation u 0 critical
    (startRecordings u sources ((List.range sources.length).map identities) startMs endMs event critical)

def startEvent (event : UUID) (sources : List UUID) (atMs preMs postMs : Int) (critical : Bool)
    (identities : Nat → UUID) : StoreM (List UUID) := do
  require (0 ≤ preMs ∧ 0 < postMs ∧ preMs + postMs ≤ maxRecordingMs) .value
  start u sources (atMs - preMs) (atMs + postMs) (some event) critical identities

def startManual (source : UUID) (atMs durationMs : Int) (identities : Nat → UUID) : StoreM (List UUID) := do
  require (0 < durationMs ∧ durationMs ≤ maxRecordingMs) .value
  start u [source] atMs (atMs + durationMs) none false identities

/-! ## Runs -/

/-- The operations of the recording store. -/
inductive Operation
  | append (segment : Segment) (id : UUID)
  | startEvent (event : UUID) (sources : List UUID) (atMs preMs postMs : Int) (critical : Bool)
      (identities : Nat → UUID)
  | startManual (source : UUID) (atMs durationMs : Int) (identities : Nat → UUID)
  | finish (recording : UUID) (stopMs : Option Int)
  | advance (nowMs : Int)
  | releaseSource (source : UUID)
  | setStarred (recording : UUID) (starred : Bool)
  | deleteRecording (recording : UUID) (ownerRequested : Bool)
  | manifest (recording : UUID)

/-- What an operation returns. -/
inductive Answer
  | nothing
  | segment (id : UUID)
  | recordings (ids : List UUID)
  | manifest (manifest : Manifest)
  | bytes (count : Int)
  deriving DecidableEq, Repr

def Operation.run : Operation → StoreM Answer
  | .append segment id => return .segment (← Recording.append u segment id)
  | .startEvent event sources atMs preMs postMs critical identities =>
    return .recordings (← Recording.startEvent u event sources atMs preMs postMs critical identities)
  | .startManual source atMs durationMs identities =>
    return .recordings (← Recording.startManual u source atMs durationMs identities)
  | .finish recording stopMs => return .manifest (← Recording.finish u recording stopMs)
  | .advance nowMs => do
    Recording.advance u nowMs
    return .nothing
  | .releaseSource source => do
    Recording.releaseSource u source
    return .nothing
  | .setStarred recording starred => do
    Recording.setStarred u recording starred
    return .nothing
  | .deleteRecording recording ownerRequested =>
    return .bytes (← Recording.deleteRecording u recording ownerRequested)
  | .manifest recording => return .manifest (← Recording.manifest u recording)

/-- An operation with the turns of its environment. -/
structure Act where
  operation : Operation
  turns : List Turn

/-- What is seen of an operation. -/
structure Output where
  result : Except Failure Answer
  log : List Entry

/-- The world an operation starts in. -/
def World.entering (w : World) (turns : List Turn) : World :=
  { w with turns := turns, log := [], reclaiming := false }

def step (a : Act) (w : World) : Output × World :=
  match a.operation.run u (w.entering a.turns) with
  | (result, w) => (⟨result, w.log⟩, w)

end Sentinel.Recording
