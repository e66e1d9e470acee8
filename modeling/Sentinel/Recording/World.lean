import Sentinel.Lib.Program
import Sentinel.Recording.Tables

/-!
# The storage policy's reservations

What the recording store runs in: the policy's reservation and state, the store's own flags, the database
with the transaction under way, and an environment that decides at every step that can raise whether it
does. `MainStoragePolicy` of `server/app/storage/policy.py`, up to `control`; the admission of media needs
the store and follows it.

The state audit is `StorageAudit.append` under `policy.control`, as the monitoring runtime composes it. All
calls come from the owning worker, so the checks of the thread are left out.
-/

namespace Sentinel.Recording

/-- The codes of `RecordingError`. -/
inductive Code
  | storageHardStop
  | storagePressure
  | storageInvalidReservation
  | storageAuditUnavailable
  | writerUnavailable
  | rootUnavailable
  | databaseBusy
  | recoveryRequired
  | sourceLimit
  | timelineRegression
  | segmentLimit
  | activeLimit
  | eventExists
  | notFound
  | deleteRefused
  | writeFailed
  deriving DecidableEq, Repr

/-- What an operation may raise. -/
inductive Failure
  | recording (code : Code)
  | value
  | os
  | sqlite
  /-- Another `Exception`. -/
  | other
  /-- A `BaseException` that is not an `Exception`. -/
  | interrupt
  deriving DecidableEq, Repr

/-- `except Exception` catches it. -/
def Failure.caught (f : Failure) : Bool := f != .interrupt

/-- `FilesystemSpace`. -/
structure Space where
  available : Int
  total : Int
  deriving DecidableEq, Repr

/-- What the environment decides at one step. -/
structure Turn where
  fault : Option Failure := none
  /-- The end of a transaction takes effect and then raises. -/
  late : Option Failure := none
  space : Space := ⟨0, 0⟩
  now : Int := 0
  integrity : Integrity := .verified
  deriving DecidableEq, Repr

/-- The thresholds of the policy. -/
structure StorageLimits where
  recordingLimitBytes : Int
  criticalAllowanceBytes : Int
  hardReserveBytes : Int
  pressureFreeBytes : Int
  recoveryFreeBytes : Int
  recoveryAllocationBytes : Int
  writeOverheadBytes : Int
  maxRequestBytes : Int
  cleanupBatchSize : Nat
  positive : 0 < criticalAllowanceBytes ∧ 0 < hardReserveBytes ∧ 0 < recoveryAllocationBytes ∧
    0 < writeOverheadBytes ∧ 0 < maxRequestBytes ∧ 0 < cleanupBatchSize
  hysteresis : hardReserveBytes < pressureFreeBytes ∧ pressureFreeBytes < recoveryFreeBytes ∧
    recoveryAllocationBytes < recordingLimitBytes ∧ cleanupBatchSize ≤ 1000

/-- The bounds of the store. -/
structure Limits where
  preRollBytes : Nat
  maxSegmentBytes : Nat
  maxSegmentMs : Int
  maxActiveRecordings : Nat
  maxSpoolSegments : Nat
  maxSegmentsPerRecording : Nat
  preRollMs : Int := 30000
  maxSources : Nat := 4
  deriving DecidableEq, Repr

/-- What the store is configured with. -/
structure Setup where
  storage : StorageLimits
  limits : Limits
  /-- `recording_days` of the retention. -/
  recordingDays : Nat := 20

/-- The states of the policy. -/
inductive StorageState
  | normal
  | pressure
  | hardStop
  deriving DecidableEq, Repr

/-- What a `MainStoragePolicy` keeps. -/
structure Policy where
  state : StorageState := .normal
  reservation : Bool := false
  reservedMedia : Int := 0
  reservedTotal : Int := 0
  auditDeliveryFailed : Bool := false
  cleanupFailed : Bool := false
  deriving DecidableEq, Repr

/-- The admissions. -/
inductive Admission
  | control
  | media
  deriving DecidableEq, Repr

/-- What an operation does with the reservation and with media, in the order of the log. -/
inductive Entry
  /-- An admission is called, with a reservation held or not. -/
  | admits (admission : Admission) (held : Bool)
  /-- An admission returns, after the last sample of the filesystem. -/
  | admitted (admission : Admission) (sample : Option Space) (reservedTotal : Int)
  | releases (held : Bool)
  /-- The file of a segment is removed, by the reclamation of an admission or not. -/
  | removesFile (segment : UUID) (tables : Tables) (reclaiming : Bool)
  | deletesSegment (segment : UUID) (tables : Tables) (reclaiming : Bool)
  | deletesRecording (recording : UUID) (tables : Tables) (reclaiming : Bool)
  /-- Segments are linked; these bytes become critical by it. -/
  | links (bytes : Nat)

/-- The state of one operation. -/
structure World where
  policy : Policy
  /-- `_failed` of the store. -/
  failed : Bool
  /-- `_reservation_active` of the store. -/
  reservationActive : Bool
  tables : Tables
  /-- The tables at the start of the transaction under way. -/
  saved : Option Tables
  lastSample : Option Space
  reclaiming : Bool
  turns : List Turn
  log : List Entry

/-- A program of the store. -/
abbrev StoreM := Program World Failure

open Program

/-- The environment decides about a step that can raise. -/
def turn : StoreM Turn := fun w =>
  match w.turns with
  | [] => (.ok {}, w)
  | t :: turns =>
    match t.fault with
    | none => (.ok t, { w with turns := turns })
    | some failure => (.error failure, { w with turns := turns })

/-- A step that can raise and has no other effect here. -/
def risk : StoreM Unit := do
  let _ ← turn
  return

def note (entry : World → Entry) : StoreM Unit := modify fun w => { w with log := entry w :: w.log }

def setPolicy (f : Policy → Policy) : StoreM Unit := modify fun w => { w with policy := f w.policy }

variable (u : Setup)

/-- `_space`. -/
def sample : StoreM Space := do
  let t ← turn
  modify fun w => { w with lastSample := some t.space }
  return t.space

def release : StoreM Unit := do
  note fun w => .releases w.policy.reservation
  let held ← read fun w => w.policy.reservation
  require (held = true) (.recording .storageInvalidReservation)
  setPolicy fun p => { p with reservation := false, reservedMedia := 0, reservedTotal := 0 }

/-- `admit_control`, with what its handler does to stop the policy. -/
def admitControlWith (stop : StoreM Unit) : StoreM Unit := do
  note fun w => .admits .control w.policy.reservation
  let held ← read fun w => w.policy.reservation
  require (held = false) (.recording .storageInvalidReservation)
  handle (do
      let space ← sample
      require (0 ≤ space.available ∧ space.available ≤ space.total ∧
        u.storage.hardReserveBytes ≤ space.available - u.storage.writeOverheadBytes) .value)
    fun f =>
      if f.caught then do
        stop
        fail (.recording .storageHardStop)
      else fail f
  setPolicy fun p => { p with
    reservation := true, reservedTotal := u.storage.writeOverheadBytes, reservedMedia := 0 }
  note fun w => .admitted .control w.lastSample w.policy.reservedTotal

/-- `control`. -/
def controlWith (stop : StoreM Unit) (body : StoreM Unit) : StoreM Unit := do
  let held ← read fun w => w.policy.reservation
  if held then body
  else do
    admitControlWith u stop
    ensure body release

def auditWith (stop : StoreM Unit) : StoreM Unit := do
  let busy ← read fun w => w.saved.isSome
  require (busy = false) (.recording .storageAuditUnavailable)
  controlWith u stop risk

/-- `_transition`. -/
def transitionWith (stop : StoreM Unit) (state : StorageState) : StoreM Unit := do
  let current ← read fun w => w.policy.state
  if current = state then pure ()
  else do
    setPolicy fun p => { p with state := state }
    handle (do
        -- the clock
        risk
        auditWith u stop)
      fun f =>
        if f.caught then setPolicy fun p => { p with auditDeliveryFailed := true } else fail f

/-- `_transition`. The audit's own admission can stop the policy, and a policy that is stopped makes no
further transition, so two levels are all there is. -/
def transition (state : StorageState) : StoreM Unit :=
  transitionWith u (transitionWith u (pure ()) .hardStop) state

def admitControl : StoreM Unit := admitControlWith u (transition u .hardStop)

end Sentinel.Recording
