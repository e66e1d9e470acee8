import Sentinel.Lib.Calendar
import Sentinel.Lib.Table

/-!
# Audit retention

`cleanup_expired_batch` and `cleanup_expired` of `server/app/audit/store.py`, over the two audit tables of the main database. Of
the rows only what they read is kept. A duration is a number of microseconds.
-/

namespace Sentinel.Audit

open Calendar

/-- The start of 1970. -/
def epoch : Datetime where
  year := 1970
  month := 1
  day := 1
  hour := 0
  minute := 0
  second := 0
  microsecond := 0
  year_mem := by decide
  month_mem := by decide
  day_mem := by decide
  hour_lt := by decide
  minute_lt := by decide
  second_lt := by decide
  microsecond_lt := by decide

/-- `_microseconds`. -/
def microseconds (value : Datetime) : Int := (value.count : Int) - epoch.count

/-- A row of `security_admin_audit_records`, written by `append_on`. -/
structure SecurityAuditRow where
  id : UUID
  occurredAtUs : Int
  written : ∃ time, occurredAtUs = microseconds time

/-- A row of `integrity_audit`, written by `approve_on`. -/
structure IntegrityAuditRow where
  id : Nat
  atText : List Char
  written : ∃ time : Datetime, time.Writes atText

/-- The audit tables; an id is a primary key. -/
@[ext] structure Tables where
  records : List SecurityAuditRow
  integrity : List IntegrityAuditRow
  records_nodup : (records.map SecurityAuditRow.id).Nodup
  integrity_nodup : (integrity.map IntegrityAuditRow.id).Nodup

def maxPageSize : Nat := 1000

/-- `AuditStore`, with the checks of its `__init__`. -/
structure AuditStore where
  retention : Nat
  cleanupBatchSize : Nat
  retention_pos : 0 < retention
  batch_mem : 1 ≤ cleanupBatchSize ∧ cleanupBatchSize ≤ maxPageSize

section Delete

variable {R : Type} (id : R → Nat) (le : R → R → Bool) (expired : R → Bool)

/-- The rows of `SELECT … WHERE expired ORDER BY … LIMIT limit`. -/
def selectOldest (limit : Nat) (rows : List R) : List R :=
  ((rows.filter expired).insertionSort fun a b => le a b).take limit

/-- `DELETE … WHERE id IN (SELECT id …)`: the rows left, and the row count. -/
def deleteOldest (limit : Nat) (rows : List R) : List R × Nat :=
  let selected := (selectOldest le expired limit rows).map id
  (rows.filter fun r => !selected.contains (id r), rows.countP fun r => selected.contains (id r))

end Delete

/-- `ORDER BY occurred_at_us, id`. -/
def recordLe (a b : SecurityAuditRow) : Bool :=
  a.occurredAtUs < b.occurredAtUs || (a.occurredAtUs == b.occurredAtUs && decide (a.id ≤ b.id))

/-- `ORDER BY at, id`. -/
def integrityLe (a b : IntegrityAuditRow) : Bool := a.atText < b.atText || (a.atText == b.atText && decide (a.id ≤ b.id))

/-- `reference - retention`, which may leave the range of the calendar. -/
def minus (reference : Datetime) (retention : Nat) : Option Datetime :=
  if retention ≤ reference.count then ofCount (reference.count - retention) else none

/-- The arithmetic of the calendar left its range. -/
inductive CleanupError
  | overflow
  deriving DecidableEq, Repr

def deleteRecords (cutoff : Datetime) : Nat → List SecurityAuditRow → List SecurityAuditRow × Nat :=
  deleteOldest SecurityAuditRow.id recordLe fun r => r.occurredAtUs < microseconds cutoff

def deleteIntegrity (cutoff : Datetime) : Nat → List IntegrityAuditRow → List IntegrityAuditRow × Nat :=
  deleteOldest IntegrityAuditRow.id integrityLe fun r => r.atText < cutoff.isoformat

theorem deleteOldest_nodup {R : Type} {id : R → Nat} {rows : List R} (le : R → R → Bool) (expired : R → Bool) (limit : Nat)
    (h : (rows.map id).Nodup) : ((deleteOldest id le expired limit rows).1.map id).Nodup :=
  h.sublist (List.filter_sublist.map id)

def cleanupExpiredBatch (store : AuditStore) (reference : Datetime) (tables : Tables) : Except CleanupError (Tables × Nat) :=
  match minus reference store.retention with
  | none => .error .overflow
  | some cutoff =>
    let deleted := deleteRecords cutoff store.cleanupBatchSize tables.records
    let removed := deleted.2
    let tables := { tables with records := deleted.1, records_nodup := deleteOldest_nodup _ _ _ tables.records_nodup }
    let remaining := store.cleanupBatchSize - removed
    if remaining ≠ 0 then
      let deleted := deleteIntegrity cutoff remaining tables.integrity
      .ok ({ tables with
              integrity := deleted.1, integrity_nodup := deleteOldest_nodup _ _ _ tables.integrity_nodup },
        removed + deleted.2)
    else .ok (tables, removed)

/-- How a run of `cleanup_expired` ends: it returns, it is interrupted after a committed batch, or a batch raises. -/
inductive Run
  | returned (tables : Tables) (deleted : Nat)
  | interrupted (tables : Tables) (deleted : Nat)
  | raised (tables : Tables) (error : CleanupError)

/-- The loop of `cleanup_expired`, interrupted after a number of batches. -/
def cleanupLoop (store : AuditStore) (reference : Datetime) : Nat → Tables → Nat → Run
  | 0, tables, deleted => .interrupted tables deleted
  | batches + 1, tables, deleted =>
    match cleanupExpiredBatch store reference tables with
    | .error error => .raised tables error
    | .ok (tables, removed) =>
      if removed < store.cleanupBatchSize then .returned tables (deleted + removed)
      else cleanupLoop store reference batches tables (deleted + removed)

def cleanupExpired (store : AuditStore) (reference : Datetime) (batches : Nat) (tables : Tables) : Run :=
  cleanupLoop store reference batches tables 0

/-- The tables that a run leaves. -/
def Run.tables : Run → Tables
  | .returned tables _ | .interrupted tables _ | .raised tables _ => tables

/-- The rows that a run counts as removed. -/
def Run.deleted : Run → Nat
  | .returned _ deleted | .interrupted _ deleted => deleted
  | .raised _ _ => 0

/-- Runs one after another, each interrupted after a number of batches: the tables left and the rows counted. -/
def interruptedRuns (store : AuditStore) (reference : Datetime) : List Nat → Tables → Tables × Nat
  | [], tables => (tables, 0)
  | batches :: rest, tables =>
    let run := cleanupExpired store reference batches tables
    let later := interruptedRuns store reference rest run.tables
    (later.1, run.deleted + later.2)

/-! ## What retention means -/

/-- The rows of both tables. -/
def Tables.size (tables : Tables) : Nat := tables.records.length + tables.integrity.length

/-- The row's time is strictly before the reference less the retention. -/
def SecurityAuditRow.Older (row : SecurityAuditRow) (reference : Datetime) (retention : Nat) : Prop :=
  ∃ time, row.occurredAtUs = microseconds time ∧ time.count + retention < reference.count

/-- The row's time is strictly before the reference less the retention. -/
def IntegrityAuditRow.Older (row : IntegrityAuditRow) (reference : Datetime) (retention : Nat) : Prop :=
  ∃ time : Datetime, time.Writes row.atText ∧ time.count + retention < reference.count

end Sentinel.Audit
