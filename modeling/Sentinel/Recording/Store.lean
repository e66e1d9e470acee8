import Sentinel.Recording.World

/-!
# The recording store

The operations of `RecordingStore` of `server/app/media/recording/store.py` that take a control reservation:
transactions, the eviction of unreferenced media, stopping and closing recordings, manifests, stars and
deletion. Every statement, file operation and check of the root can raise. The contents of files are not
modelled: the environment decides what the integrity check of a segment finds.
-/

namespace Sentinel.Recording

open Program

variable (u : Setup)

/-! ## Checks and transactions -/

def check : StoreM Unit := do
  let failed ← read World.failed
  require (failed = false) (.recording .writerUnavailable)
  risk

def releaseReservation : StoreM Unit := do
  modify fun w => { w with reservationActive := false }
  handle release fun f => do
    modify fun w => { w with failed := true }
    fail f

def controlReservation {α : Type} (body : StoreM α) : StoreM α := do
  let active ← read World.reservationActive
  if active then body
  else do
    admitControl u
    modify fun w => { w with reservationActive := true }
    ensure body releaseReservation

def controlOperation {α : Type} (body : StoreM α) : StoreM α := do
  check
  controlReservation u body

/-- `COMMIT` or `ROLLBACK`, which may raise before or after its effect. -/
def endTransaction (f : World → World) : StoreM Unit := do
  let t ← turn
  modify f
  match t.late with
  | none => pure ()
  | some failure => fail failure

def commit : StoreM Unit := endTransaction fun w => { w with saved := none }

def rollback : StoreM Unit :=
  endTransaction fun w => { w with tables := w.saved.getD w.tables, saved := none }

/-- The body between `BEGIN IMMEDIATE` and `COMMIT`, rolled back when something raises. -/
def attempt {α : Type} (body : StoreM α) : StoreM α :=
  handle (do
      risk
      modify fun w => { w with saved := some w.tables }
      let a ← body
      commit
      return a)
    fun f => do
      let busy ← read fun w => w.saved.isSome
      whenever (busy = true) rollback
      fail f

def transaction {α : Type} (body : StoreM α) : StoreM α := do
  let busy ← read fun w => w.saved.isSome
  require (busy = false) (.recording .databaseBusy)
  controlReservation u (attempt body)

def query {α : Type} (f : Tables → α) : StoreM α := do
  risk
  read fun w => f w.tables

/-- The bytes that become critical when the segments are linked to the recording. -/
def newlyCritical (t : Tables) (recording : UUID) (segments : List UUID) : Nat :=
  if t.recordings.rows.any fun r => r.id == recording && r.critical then
    t.bytes fun s => segments.contains s.id && !t.isCritical s
  else 0

/-- What the log says about a statement. A recording is deleted from its mark on. -/
def Change.entries (c : Change) (t : Tables) (reclaiming : Bool) : List Entry :=
  match c with
  | .deleteSegment segment => [.deletesSegment segment t reclaiming]
  | .deleteRecording recording => [.deletesRecording recording t reclaiming]
  | .setStatus recording .deleting => [.deletesRecording recording t reclaiming]
  | .link recording segments => [.links (newlyCritical t recording segments)]
  | _ => []

def World.perform (w : World) (c : Change) : World :=
  { w with tables := w.tables.apply c, log := c.entries w.tables w.reclaiming ++ w.log }

/-- Execute a statement. -/
def exec (c : Change) : StoreM Unit := do
  risk
  let allowed ← read fun w => w.tables.allows c
  require (allowed = true) .sqlite
  modify fun w => w.perform c

def usageBytes (starredOnly criticalOnly : Bool) : StoreM Nat := do
  -- the root, also of a store that failed
  risk
  query fun t => t.usageBytes starredOnly criticalOnly

def recording (id : UUID) : StoreM RecordingRow := do
  let row ← query fun t => t.recordings.find? id
  match row with
  | none => fail (.recording .notFound)
  | some row => return row

/-- Set `_failed` where the body raises. -/
def orFailed {α : Type} (body : StoreM α) : StoreM α :=
  handle body fun f => do
    modify fun w => { w with failed := true }
    fail f

/-! ## Eviction -/

/-- The spool rows to evict: oldest first, until both bounds hold. -/
def evictions (limits : Limits) : Nat → Nat → List SegmentRow → List UUID
  | _, _, [] => []
  | total, remaining, s :: rest =>
    if total ≤ limits.preRollBytes ∧ remaining ≤ limits.maxSpoolSegments then []
    else s.id :: evictions limits (total - s.byteLength) (remaining - 1) rest

/-- `ORDER BY end_ms,id`. -/
def SegmentRow.endsBefore (a b : SegmentRow) : Prop := a.endMs < b.endMs ∨ a.endMs = b.endMs ∧ a.id ≤ b.id

instance : DecidableRel SegmentRow.endsBefore := fun _ _ => inferInstanceAs (Decidable (_ ∨ _))

/-- The spool, oldest first. -/
def Tables.spoolRows (t : Tables) : List SegmentRow :=
  (t.segments.rows.filter SegmentRow.spool).insertionSort SegmentRow.endsBefore

/-- Remove the file of a segment, and its row. -/
def removeSegment (id : UUID) : StoreM Unit := do
  -- `_unlink` and the directory
  risk
  note fun w => .removesFile id w.tables w.reclaiming
  risk
  transaction u (exec (.deleteSegment id))

def trim : StoreM Unit := controlOperation u do
  risk
  transaction u do
    let beyond ← query fun t => (t.segments.rows.filter fun s =>
      s.spool && t.beyondPreRoll u.limits.preRollMs s.source s.endMs).map SegmentRow.id
    exec (.unspool beyond)
    let rows ← query Tables.spoolRows
    let total := (rows.map SegmentRow.byteLength).sum
    forEach (fun id => exec (.unspool [id])) (evictions u.limits total rows.length rows)
    let gaps ← query fun t => t.sourceDiscontinuities.filter fun d =>
      t.beyondPreRoll u.limits.preRollMs d.owner d.endMs
    exec (.dropSource gaps)
  let unused ← query fun t => (t.segments.rows.filter fun s =>
    !s.spool && s.state == .ready && decide (t.Unlinked s.id)).map SegmentRow.id
  forEach (removeSegment u) unused

def releaseSource (source : UUID) : StoreM Unit := controlOperation u do
  check
  transaction u do
    exec (.deactivate source)
    let spool ← query fun t => (t.segments.rows.filter (·.source == source)).map SegmentRow.id
    exec (.unspool spool)
    let gaps ← query fun t => t.sourceDiscontinuities.filter (·.owner == source)
    exec (.dropSource gaps)
  orFailed (trim u)

/-! ## Manifests -/

/-- The reason of a gap of a manifest. -/
inductive GapReason
  | unavailable
  | awaitingMedia
  | media (integrity : Integrity)
  deriving DecidableEq, Repr

/-- A span of a manifest. -/
structure Gap where
  startMs : Int
  endMs : Int
  reason : GapReason
  deriving DecidableEq, Repr

/-- A segment of a manifest, clipped. -/
structure Clip where
  segment : UUID
  byteLength : Nat
  startMs : Int
  endMs : Int
  integrity : Integrity
  deriving DecidableEq, Repr

/-- What `manifest` returns besides the row. -/
structure Manifest where
  status : Status
  segments : List Clip
  gaps : List Gap
  pending : List Gap
  discontinuities : List (Int × Int)
  byteLength : Nat
  integrityPersisted : Bool
  deriving DecidableEq, Repr

/-- `_integrity`: an error of the file is an answer. -/
def integrity : StoreM Integrity :=
  handle (do
    let t ← turn
    return t.integrity)
    fun f => if f = .os then pure .unreadable else fail f

/-- The loop over the segments: the clips, the gaps between and of them, and the end of the last one. -/
def clips (row : RecordingRow) : Int → List SegmentRow → StoreM (List Clip × List Gap × Int)
  | cursor, [] => pure ([], [], cursor)
  | cursor, s :: rest => do
    let start := max row.startMs s.startMs
    let stop := min row.targetEndMs s.endMs
    if stop ≤ start then clips row cursor rest
    else do
      let found ← integrity
      let (later, gaps, last) ← clips row (max cursor stop) rest
      let before := if cursor < start then [⟨cursor, start, .unavailable⟩] else []
      let broken := if found ≠ .verified then [⟨start, stop, .media found⟩] else []
      return (⟨s.id, s.byteLength, start, stop, found⟩ :: later, before ++ broken ++ gaps, last)

/-- The markers between consecutive segments that do not follow each other. -/
def breaks : List SegmentRow → List (Int × Int)
  | previous :: current :: rest =>
    (if previous.stream ≠ current.stream ∨ current.sequence ≠ previous.sequence + 1 then
      [(previous.endMs, current.startMs)] else []) ++ breaks (current :: rest)
  | _ => []

/-- The markers within the recording, clipped, each once. -/
def bounded (row : RecordingRow) (markers : List (Int × Int)) : List (Int × Int) :=
  (((markers.filter fun m => m.1 < row.targetEndMs ∧ row.startMs < m.2).map fun m =>
    (max row.startMs m.1, min row.targetEndMs m.2)).reverse.dedup).reverse

/-- `ORDER BY s.start_ms,s.id`. -/
def SegmentRow.startsBefore (a b : SegmentRow) : Prop :=
  a.startMs < b.startMs ∨ a.startMs = b.startMs ∧ a.id ≤ b.id

instance : DecidableRel SegmentRow.startsBefore := fun _ _ => inferInstanceAs (Decidable (_ ∨ _))

/-- The segments linked to the recording. -/
def Tables.linkedSegments (t : Tables) (recording : UUID) : List SegmentRow :=
  (t.segments.rows.filter fun s => t.links.contains ⟨recording, s.id⟩).insertionSort SegmentRow.startsBefore

/-- The transaction of `manifest`. -/
def persistIntegrity (id : UUID) (items : List Clip) (before after : Status) : StoreM Unit :=
  transaction u do
    forEach (fun item : Clip => exec (.setIntegrity item.segment item.integrity)) items
    whenever (after ≠ before) (exec (.setStatus id after))

def manifest (id : UUID) : StoreM Manifest := do
  check
  let row ← recording id
  let segments ← query fun t => t.linkedSegments id
  let (items, gaps, cursor) ← clips row row.startMs segments
  let rest := if cursor < row.targetEndMs then [(cursor, row.targetEndMs)] else []
  let gaps := gaps ++ if row.status = .active then [] else rest.map fun g => ⟨g.1, g.2, .unavailable⟩
  let pending := if row.status = .active then rest.map fun g => ⟨g.1, g.2, .awaitingMedia⟩ else []
  let noted ← query fun t => ((t.discontinuities.filter fun d => d.owner == id &&
    overlaps d.startMs d.endMs row.startMs row.targetEndMs).map fun d => (d.startMs, d.endMs)).insertionSort
      fun a b => a.1 ≤ b.1
  let markers := bounded row (noted ++ breaks segments)
  let status := if row.status = .complete ∧ (gaps ≠ [] ∨ markers ≠ []) then .gapped else row.status
  let persisted ← handle (do
      persistIntegrity u id items row.status status
      return true)
    fun f =>
      if f = .recording .storageHardStop ∨ f = .recording .storagePressure then pure false else fail f
  return ⟨status, items, gaps, pending, markers, (items.map Clip.byteLength).sum, persisted⟩

/-! ## Stopping and closing -/

/-- The part of `finish` for an active recording. -/
def stopRecording (row : RecordingRow) (stopMs : Option Int) : StoreM Unit := do
  -- `stop_ms or row["target_end_ms"]`
  let endMs := (stopMs.filter (· ≠ 0)).getD row.targetEndMs
  let cursor ← query fun t => t.cursors.find? row.source
  let closeNow := stopMs.isNone || cursor.any fun c => endMs ≤ c.endMs
  transaction u do
    exec (.closeRecording row.id endMs (if closeNow then some endMs else none)
      (if closeNow then .complete else .active))
    whenever (closeNow = true) do
      let outside ← query fun t => (t.segments.rows.filter fun s =>
        decide (endMs ≤ s.startMs) || decide (s.endMs ≤ row.startMs)).map SegmentRow.id
      exec (.unlink row.id outside)
      let gaps ← query fun t => t.discontinuities.filter fun d => d.owner == row.id &&
        (decide (endMs ≤ d.startMs) || decide (d.endMs ≤ row.startMs))
      exec (.dropNotes gaps)
  whenever (closeNow = true) (orFailed (trim u))

def finish (id : UUID) (stopMs : Option Int) : StoreM Manifest := controlOperation u do
  check
  let row ← recording id
  require (∀ stop ∈ stopMs, row.startMs < stop ∧ stop ≤ row.targetEndMs) .value
  whenever (row.status = .active) (stopRecording u row stopMs)
  let result ← manifest u id
  if result.status = .gapped ∨ result.gaps ≠ [] ∧ result.status = .complete then do
    transaction u (exec (.setStatus id .gapped))
    return { result with status := .gapped }
  else return result

def advance (nowMs : Int) : StoreM Unit := do
  check
  require (0 ≤ nowMs) .value
  let rows ← query fun t => (t.recordings.rows.filter fun r => r.status == .active &&
    decide (r.targetEndMs + u.limits.maxSegmentMs ≤ nowMs)).map RecordingRow.id
  forEach (fun id => do
    let _ ← finish u id none
    return) rows

def setStarred (id : UUID) (starred : Bool) : StoreM Unit := controlOperation u do
  check
  let _ ← recording id
  transaction u (exec (.setStarred id starred))

/-! ## Deletion -/

/-- `prepare_delete_on`, inside the transaction of `delete_recording`. -/
def prepareDelete (id : UUID) (ownerRequested : Bool) : StoreM Nat := do
  check
  let busy ← read fun w => w.saved.isSome
  require (busy = true) (.recording .databaseBusy)
  controlReservation u do
    let before ← usageBytes false false
    let row ← recording id
    require (row.status ≠ .active ∧ (row.starred = true → ownerRequested = true)) (.recording .deleteRefused)
    exec (.setStatus id .deleting)
    let linked ← query fun t => (t.links.filter (·.recording == id)).map Link.segment
    exec (.unlink id linked)
    let gaps ← query fun t => t.discontinuities.filter (·.owner == id)
    exec (.dropNotes gaps)
    return before

def finishPreparedDelete (id : UUID) (before : Nat) : StoreM Int := controlOperation u do
  check
  orFailed do
    trim u
    transaction u (exec (.deleteRecording id))
    let after ← usageBytes false false
    return before - after

def deleteRecording (id : UUID) (ownerRequested : Bool) : StoreM Int := controlOperation u do
  check
  let before ← transaction u (prepareDelete u id ownerRequested)
  finishPreparedDelete u id before

end Sentinel.Recording
