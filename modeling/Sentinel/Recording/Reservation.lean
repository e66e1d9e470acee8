import Sentinel.Recording.Admission

/-!
# Reservations and what is kept under them

The states in which the store and its policy are between two steps of an operation: with no reservation
(`Idle`), and with one (`Reserved`, and `Held` once the store mirrors it). Both speak of the tables, of those
a rollback would bring back, and of the log, through two relations `R` and `S` that the results choose. A
relation is `Closed` for a kind of statements when these statements keep it.
-/

namespace Sentinel.Recording

/-! ## The log -/

/-- No reservation is held and nothing is reserved. -/
structure World.Unreserved (w : World) : Prop where
  reservation : w.policy.reservation = false
  active : w.reservationActive = false
  media : w.policy.reservedMedia = 0
  total : w.policy.reservedTotal = 0

/-- The recording is active or starred. -/
def RecordingRow.Protected (r : RecordingRow) : Prop := r.status = .active ∨ r.starred = true

/-- The segment is linked to an active or starred recording. -/
def Tables.Protects (t : Tables) (segment : UUID) : Prop :=
  ∃ l ∈ t.links, l.segment = segment ∧ ∃ r ∈ t.recordings.rows, r.id = l.recording ∧ r.Protected

/-- What the entries of a log must say: admissions are called without a reservation and return with the
hard reserve kept by the last sample, releases are called with one, and reclamation deletes nothing that is
active or starred and no segment linked to it. -/
def Entry.Ok (u : Setup) : Entry → Prop
  | .admits _ held => held = false
  | .admitted _ sample reservedTotal =>
    ∃ space, sample = some space ∧ u.storage.hardReserveBytes ≤ space.available - reservedTotal
  | .releases held => held = true
  | .removesFile segment tables reclaiming => reclaiming = true → ¬ tables.Protects segment
  | .deletesSegment segment tables reclaiming => reclaiming = true → ¬ tables.Protects segment
  | .deletesRecording recording tables reclaiming =>
    reclaiming = true → ∀ r ∈ tables.recordings.rows, r.id = recording → ¬ r.Protected
  | .links _ => True

/-- The bytes that the links of the log made critical. -/
def charged : List Entry → Nat
  | [] => 0
  | .links bytes :: log => bytes + charged log
  | _ :: log => charged log

/-! ## Between two steps -/

/-- What is asked of tables, given the bytes charged so far. -/
abbrev Demand := Nat → Tables → Prop

/-- The demand holds on with more bytes charged. -/
def Demand.Mono (R : Demand) : Prop := ∀ ⦃m n t⦄, m ≤ n → R m t → R n t

/-- The log is in order, the tables meet `R` and those a rollback would bring back meet `S`. -/
structure Calm (u : Setup) (reclaiming : Bool) (R S : Demand) (w : World) : Prop where
  log : ∀ e ∈ w.log, e.Ok u
  reclaiming : w.reclaiming = reclaiming
  tables : R (charged w.log) w.tables
  saved : ∀ t ∈ w.saved, S (charged w.log) t

/-- Between two operations. -/
structure Idle (u : Setup) (reclaiming : Bool) (R S : Demand) (w : World) : Prop where
  unreserved : w.Unreserved
  calm : Calm u reclaiming R S w

/-- The policy holds a reservation; `K` is what is known of the policy and the last sample. -/
structure Reserved (u : Setup) (active : Bool) (K : Policy → Option Space → Prop) (reclaiming : Bool)
    (R S : Demand) (w : World) : Prop where
  held : w.policy.reservation = true
  active : w.reservationActive = active
  policy : K w.policy w.lastSample
  calm : Calm u reclaiming R S w

/-- The policy holds a reservation and the store mirrors it. -/
abbrev Held (u : Setup) := Reserved u true

/-! ## Kinds of statements -/

/-- Statements of `_trim`. -/
def Change.Evicts : Change → Prop
  | .unspool _ | .dropSource _ | .deleteSegment _ => True
  | _ => False

/-- Statements of `delete_recording`. -/
def Change.Removes (id : UUID) : Change → Prop
  | .setStatus recording status => recording = id ∧ status = .deleting
  | .unlink recording _ | .deleteRecording recording => recording = id
  | .dropNotes _ => True
  | c => c.Evicts

/-- Statements of `_publish` and of the `_trim` after it. -/
def Change.Publishes (id : UUID) : Change → Prop
  | .publish segment => segment = id
  | .link _ segments => segments = [id]
  | .setCursor _ | .noteSource _ | .note _ => True
  | c => c.Evicts

def Change.Starts : Change → Prop
  | .insertRecording _ | .link _ _ | .note _ => True
  | _ => False

/-- Statements that add neither segments nor recordings nor links. -/
def Change.Edits : Change → Prop
  | .journal _ | .publish _ | .link _ _ | .insertRecording _ => False
  | _ => True

/-- The bytes that a statement makes critical by links. -/
def Change.charge (t : Tables) : Change → Nat
  | .link recording segments => newlyCritical t recording segments
  | _ => 0

/-- The statements of the kind `A` keep the demand and leave the log in order. -/
structure Closed (u : Setup) (reclaiming : Bool) (A : Change → Prop) (R : Demand) : Prop where
  mono : R.Mono
  change : ∀ {c n t}, A c → t.allows c = true → R n t → R (n + c.charge t) (t.apply c)
  entries : ∀ {c n t}, A c → t.allows c = true → R n t → ∀ e ∈ c.entries t reclaiming, e.Ok u

/-- No recording of the list is active or starred. -/
def Tables.Inert (t : Tables) (ids : List UUID) : Prop :=
  ∀ r ∈ t.recordings.rows, r.id ∈ ids → ¬ r.Protected

/-! ## The critical allowance -/

/-- The foreign key of the links to their recordings. -/
def Tables.Referenced (t : Tables) : Prop := ∀ l ∈ t.links, ¬ t.recordings.Free l.recording

instance (t : Tables) : Decidable t.Referenced :=
  inferInstanceAs (Decidable (∀ l ∈ t.links, ¬ t.recordings.Free l.recording))

/-- The critical bytes of the segments that `keep` keeps. -/
def Tables.criticalBytes (t : Tables) (keep : UUID → Bool) : Nat := t.bytes fun s => keep s.id && t.isCritical s

/-- The sources and the window of the recordings that the operation starts. -/
def Operation.starts : Operation → Option (List UUID × Int × Int)
  | .startEvent _ sources atMs preMs postMs _ _ => some (sources, atMs - preMs, atMs + postMs)
  | .startManual source atMs durationMs _ => some ([source], atMs, atMs + durationMs)
  | _ => none

/-- The operation starts a critical recording. -/
def Operation.startsCritical : Operation → Bool
  | .startEvent _ _ _ _ _ critical _ => critical
  | _ => false

/-- The critical bytes are within the allowance. -/
def Within (u : Setup) : Demand := fun _ t =>
  t.Referenced ∧ (t.usageBytes false true : Int) ≤ u.storage.criticalAllowanceBytes

/-- The critical bytes are within the allowance while the segment is written, whatever becomes of it. -/
def Writing (u : Setup) (id : UUID) (media : Nat) : Demand := fun _ t =>
  t.Referenced ∧ (∀ s ∈ t.segments.rows, s.id = id → s.byteLength ≤ media) ∧
    t.criticalBytes (· != id) + (media + u.storage.writeOverheadBytes) ≤ u.storage.criticalAllowanceBytes

/-- Up to the bytes that links have made critical, the critical bytes leave room for the overhead. -/
def Starting (u : Setup) : Demand := fun n t =>
  t.Referenced ∧ t.usageBytes false true + u.storage.writeOverheadBytes ≤ u.storage.criticalAllowanceBytes + n

end Sentinel.Recording
