import Sentinel.Lib.Table

/-!
# The tables of the recording store

The rows of `server/app/media/recording/schema.py` and the statements that `RecordingStore` executes on
them. Each statement is given by the rows it writes or removes; which ones these are is computed where the
statement is executed. Codec, container, capture node and digest of a segment are stored and never read by
an operation that decides something, and are left out; every discontinuity has the one reason
`stream_discontinuity`.
-/

namespace Sentinel.Recording

/-- The `state` of a segment. -/
inductive SegmentState
  | pending
  | ready
  deriving DecidableEq, Repr

/-- The `integrity` of a segment. -/
inductive Integrity
  | unchecked
  | verified
  | corrupt
  | missing
  | unreadable
  deriving DecidableEq, Repr

/-- A row of `recording_segments`. -/
structure SegmentRow where
  id : UUID
  source : UUID
  stream : UUID
  sequence : Int
  startMs : Int
  endMs : Int
  byteLength : Nat
  state : SegmentState := .pending
  spool : Bool := false
  critical : Bool := false
  integrity : Integrity := .unchecked
  deriving DecidableEq, Repr

/-- The `status` of a recording. -/
inductive Status
  | active
  | complete
  | gapped
  | interrupted
  | deleting
  deriving DecidableEq, Repr

/-- A row of `recordings`. -/
structure RecordingRow where
  id : UUID
  source : UUID
  event : Option UUID := none
  startMs : Int
  targetEndMs : Int
  endedMs : Option Int := none
  status : Status := .active
  critical : Bool := false
  starred : Bool := false
  deriving DecidableEq, Repr

/-- `ORDER BY ended_ms,id`, with the missing times first. -/
def RecordingRow.before (a b : RecordingRow) : Prop :=
  match a.endedMs, b.endedMs with
  | none, some _ => True
  | some _, none => False
  | none, none => a.id ≤ b.id
  | some x, some y => x < y ∨ x = y ∧ a.id ≤ b.id

instance : DecidableRel RecordingRow.before := fun a b => by
  unfold RecordingRow.before
  split <;> infer_instance

/-- A row of `recording_links`. -/
structure Link where
  recording : UUID
  segment : UUID
  deriving DecidableEq, Repr

/-- A row of `recording_source_cursors`. -/
structure Cursor where
  source : UUID
  stream : UUID
  sequence : Int
  endMs : Int
  active : Bool := true
  deriving DecidableEq, Repr

/-- A row of `recording_discontinuities` or `recording_source_discontinuities`, of its recording or
source. -/
structure Discontinuity where
  owner : UUID
  startMs : Int
  endMs : Int
  deriving DecidableEq, Repr

/-- The rows of the recording database. -/
structure Tables where
  segments : Table SegmentRow.id := .empty
  recordings : Table RecordingRow.id := .empty
  links : List Link := []
  cursors : Table Cursor.source := .empty
  discontinuities : List Discontinuity := []
  sourceDiscontinuities : List Discontinuity := []

def overlaps (start stop start' stop' : Int) : Bool := decide (start < stop') && decide (start' < stop)

namespace Tables

variable (t : Tables)

/-- A link of the segment to such a recording. -/
def linked (p : RecordingRow → Bool) (segment : UUID) : Bool :=
  t.links.any fun l => l.segment == segment && t.recordings.rows.any fun r => r.id == l.recording && p r

/-- The segment counts as critical. -/
def isCritical (s : SegmentRow) : Bool :=
  s.state == .pending && s.critical || t.linked RecordingRow.critical s.id

def bytes (p : SegmentRow → Bool) : Nat := ((t.segments.rows.filter p).map SegmentRow.byteLength).sum

def usageBytes (starredOnly criticalOnly : Bool) : Nat :=
  t.bytes fun s => (!starredOnly || t.linked RecordingRow.starred s.id) && (!criticalOnly || t.isCritical s)

/-- The segment has no link. -/
def Unlinked (segment : UUID) : Prop := ∀ l ∈ t.links, l.segment ≠ segment

instance (segment : UUID) : Decidable (t.Unlinked segment) :=
  inferInstanceAs (Decidable (∀ l ∈ t.links, l.segment ≠ segment))

/-- The segments of the spool that a recording of the source links when it starts. -/
def spooled (source : UUID) (startMs endMs : Int) : List SegmentRow :=
  t.segments.rows.filter fun s => s.source == source && s.state == .ready && s.spool &&
    overlaps s.startMs s.endMs startMs endMs

/-- `retention_candidates`, before the limit. -/
def candidates (beforeMs : Option Int) : List RecordingRow :=
  (t.recordings.rows.filter fun r => !r.starred &&
    (r.status == .complete || r.status == .gapped || r.status == .interrupted) &&
    (beforeMs.all fun before => r.endedMs.any fun ended => ended ≤ before)).insertionSort
      RecordingRow.before

/-- The latest end of a segment of the source. -/
def latestEnd (source : UUID) : Option Int :=
  ((t.segments.rows.filter (·.source == source)).map SegmentRow.endMs).max?

/-- The pre-roll of the source is over at the time. -/
def beyondPreRoll (preRollMs : Int) (source : UUID) (endMs : Int) : Bool :=
  (t.latestEnd source).any fun latest => endMs ≤ latest - preRollMs

end Tables

/-! ## Statements -/

/-- The statements that change the tables. -/
inductive Change
  | journal (row : SegmentRow)
  /-- The segment becomes ready, in the spool and verified. -/
  | publish (segment : UUID)
  | setCursor (cursor : Cursor)
  | deactivate (source : UUID)
  /-- `INSERT OR IGNORE INTO recording_source_discontinuities`. -/
  | noteSource (gap : Discontinuity)
  | dropSource (gaps : List Discontinuity)
  | note (gaps : List Discontinuity)
  | dropNotes (gaps : List Discontinuity)
  | link (recording : UUID) (segments : List UUID)
  | unlink (recording : UUID) (segments : List UUID)
  | unspool (segments : List UUID)
  | deleteSegment (segment : UUID)
  | setIntegrity (segment : UUID) (integrity : Integrity)
  | insertRecording (row : RecordingRow)
  | closeRecording (recording : UUID) (targetEndMs : Int) (endedMs : Option Int) (status : Status)
  | setStatus (recording : UUID) (status : Status)
  | setStarred (recording : UUID) (starred : Bool)
  | deleteRecording (recording : UUID)
  deriving DecidableEq, Repr

namespace Tables

/-- Update the segments of the identities. -/
def updateSegments (t : Tables) (ids : List UUID) (f : SegmentRow → SegmentRow) (hf : ∀ s, (f s).id = s.id) :
    Tables :=
  { t with
    segments := t.segments.update (fun s => if s.id ∈ ids then f s else s) fun s => by
      split
      · exact hf s
      · rfl }

def updateRecording (t : Tables) (id : UUID) (f : RecordingRow → RecordingRow) (hf : ∀ r, (f r).id = r.id) :
    Tables :=
  { t with
    recordings := t.recordings.update (fun r => if r.id = id then f r else r) fun r => by
      split
      · exact hf r
      · rfl }

def apply (t : Tables) : Change → Tables
  | .journal row => { t with segments := t.segments.insert row }
  | .publish segment =>
    t.updateSegments [segment] (fun s => { s with state := .ready, spool := true, integrity := .verified })
      fun _ => rfl
  | .setCursor cursor =>
    { t with cursors := (t.cursors.delete fun c => c.source == cursor.source).insert cursor }
  | .deactivate source =>
    { t with
      cursors := t.cursors.update (fun c => if c.source = source then { c with active := false } else c)
        fun c => by split <;> rfl }
  | .noteSource gap =>
    { t with
      sourceDiscontinuities :=
        if gap ∈ t.sourceDiscontinuities then t.sourceDiscontinuities else t.sourceDiscontinuities ++ [gap] }
  | .dropSource gaps => { t with sourceDiscontinuities := t.sourceDiscontinuities.filter (· ∉ gaps) }
  | .note gaps => { t with discontinuities := t.discontinuities ++ gaps }
  | .dropNotes gaps => { t with discontinuities := t.discontinuities.filter (· ∉ gaps) }
  | .link recording segments => { t with links := t.links ++ segments.map (⟨recording, ·⟩) }
  | .unlink recording segments =>
    { t with links := t.links.filter fun l => !(l.recording == recording && segments.contains l.segment) }
  | .unspool segments => t.updateSegments segments (fun s => { s with spool := false }) fun _ => rfl
  | .deleteSegment segment => { t with segments := t.segments.delete (·.id == segment) }
  | .setIntegrity segment integrity =>
    t.updateSegments [segment] (fun s => { s with integrity := integrity }) fun _ => rfl
  | .insertRecording row => { t with recordings := t.recordings.insert row }
  | .closeRecording recording targetEndMs endedMs status =>
    t.updateRecording recording
      (fun r => { r with targetEndMs := targetEndMs, endedMs := endedMs, status := status }) fun _ => rfl
  | .setStatus recording status =>
    t.updateRecording recording (fun r => { r with status := status }) fun _ => rfl
  | .setStarred recording starred =>
    t.updateRecording recording (fun r => { r with starred := starred }) fun _ => rfl
  | .deleteRecording recording => { t with recordings := t.recordings.delete (·.id == recording) }

/-- The primary keys, the uniqueness of `(source_id, stream_id, sequence)` and the foreign keys allow the
statement. -/
def allows (t : Tables) : Change → Bool
  | .journal row => decide (t.segments.Free row.id) && t.segments.rows.all fun s =>
      !(s.source == row.source && s.stream == row.stream && s.sequence == row.sequence)
  | .link recording segments =>
    !decide (t.recordings.Free recording) && decide segments.Nodup && segments.all fun segment =>
      !decide (t.segments.Free segment) && !t.links.contains ⟨recording, segment⟩
  | .note gaps => gaps.all fun gap => !decide (t.recordings.Free gap.owner)
  | .deleteSegment segment => decide (t.Unlinked segment)
  | .insertRecording row => decide (t.recordings.Free row.id)
  | .deleteRecording recording =>
    t.links.all (·.recording != recording) && t.discontinuities.all (·.owner != recording)
  | _ => true

end Tables

end Sentinel.Recording
