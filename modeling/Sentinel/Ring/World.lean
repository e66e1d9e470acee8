import Sentinel.Lib.Program
import Sentinel.Ring.Prediction

/-!
# The world of the ring

What the ring runs in: the ledger, the media directory with its free space, the ring's own memory and
the environment. The environment decides before every call of the store or the ledger whether the
call is refused or the process crashes, and may change the media directory as other programs can.
Every durable change is logged with the ledger and files it was made on.

The methods of `MediaStore` are modelled by what the ring depends on: the listing, the allocation of
each file, the reserve check, and writes and deletions that can fail after they took effect. Refusals
for other reasons (mount identity, ownership, input and output errors) are decisions of the
environment.
-/

namespace Sentinel.Ring

/-- The codes of `StorageRefused`; `other` stands for the codes of the mount and ownership checks. -/
inductive StorageCode
  /-- `STORAGE_HARD_STOP`: the safety reserve would be crossed. -/
  | hardStop
  | segmentSizeLimit
  | segmentWriteFailed
  | partialCleanupFailed
  | unsupportedSegmentAllocation
  | actualAllocationExceededCapacity
  | other (text : String)
  deriving DecidableEq, Repr

/-- What an operation may raise. -/
inductive Failure
  /-- `RingRefused`. -/
  | ring (refusal : Refusal)
  /-- `StorageRefused`. -/
  | storage (code : StorageCode)
  /-- `sqlite3.Error` or `OSError`. -/
  | unavailable
  /-- A file that was just written is not listed. -/
  | keyError
  | crash
  deriving DecidableEq, Repr

/-- A file of the media directory. -/
structure File where
  data : List UInt8
  /-- `st_blocks * 512`. -/
  allocated : Nat
  deriving DecidableEq, Repr

/-- The media directory and the free bytes of its filesystem. -/
structure Media where
  files : Dict UUID File := .empty
  available : Nat := 0

/-- What the environment decides about one call. -/
inductive Fault
  | crash
  | storage (code : StorageCode)
  | ledger (code : LedgerCode)
  | unavailable
  deriving DecidableEq, Repr

/-- One turn of the environment, before a call. -/
structure Turn where
  /-- What other programs did to the media directory. -/
  interfere : Media → Media := id
  fault : Option Fault := none

/-- The settings and the facts of the host that stay the same while the ring is open. -/
structure Settings where
  safetyReserveBytes : Nat
  maxSegmentBytes : Nat
  /-- `allocation_unit` of the media filesystem. -/
  allocationUnit : Nat
  /-- `maximum_bytes` of the ledger, in whole pages. -/
  ledgerMaximumBytes : Nat
  /-- The `ledger_headroom` that media writes keep free. -/
  ledgerHeadroom : Nat
  sha256 : List UInt8 → Nat
  unit_pos : 0 < allocationUnit

/-- The `state` of the ring. -/
inductive RingState
  | healthy
  | degraded
  | storagePressure
  | storageHardStop
  deriving DecidableEq, Repr

/-- The `reason` of the ring's state. -/
inductive StatusReason
  | notConfigured
  | segmentIntegrityGap
  | profileBoundViolation
  | clockUncertain
  | nonMonotonicSegment
  | ordinaryCapacityExhausted
  | segmentWriteRefusedAtReserve
  | lossTimeAnchorUnavailable
  | safetyReserveUnavailable
  | insufficientLedgerCapacity
  | postLossHeadroomReduced
  | segmentWriteAtRiskAtMaximumBitrate
  | protectedEvidenceIntegrityGap
  | protectedIncidentPartial
  | orphanMediaPresent
  | preLossCoverageGap
  | ordinaryRingIntegrityGap
  | protectionReady
  /-- The text of a `RingRefused` of the ledger. -/
  | ledger (code : LedgerCode)
  /-- The text of a `StorageRefused`. -/
  | storage (code : StorageCode)
  deriving DecidableEq, Repr

/-- What a `DiskRing` keeps in memory. -/
structure Memory where
  /-- `config`, `profiles` and `history_after`. -/
  configuration : Option Configuration := none
  connected : Bool := false
  state : RingState := .degraded
  reason : StatusReason := .notConfigured

/-- `profiles`, empty before the ring is configured. -/
def Memory.profiles (m : Memory) : Profiles := m.configuration.elim .empty Configuration.profiles

/-- A durable change and what it was made on. -/
structure Entry where
  action : Action
  ledger : Ledger
  media : Media

/-- The state of one operation. -/
structure World where
  ledger : Ledger
  media : Media
  memory : Memory
  turns : List Turn
  /-- What `uuid4` returns. -/
  ids : List UUID
  /-- The durable changes of the call, the latest first. -/
  log : List Entry

/-- A program of the ring. -/
abbrev RingM := Program World Failure

open Program

def Media.apply (m : Media) : Action → Media
  | .writeFile segment data allocated =>
    { files := m.files.set segment ⟨data, allocated⟩, available := m.available - allocated }
  | .deleteFile segment =>
    { files := m.files.erase segment
      available := m.available + (m.files.get? segment).elim 0 File.allocated }
  | _ => m

def act (action : Action) : RingM Unit :=
  modify fun w => { w with
    ledger := w.ledger.apply action
    media := w.media.apply action
    log := ⟨action, w.ledger, w.media⟩ :: w.log }

/-- Give the environment its turn; `failure` says how its decision reaches the caller. -/
def turn (failure : Fault → Failure) : RingM Unit := fun w =>
  match w.turns with
  | [] => (.ok (), w)
  | t :: turns =>
    let w := { w with turns := turns, media := t.interfere w.media }
    match t.fault with
    | none => (.ok (), w)
    | some fault => (.error (failure fault), w)

/-- The turn before a call of the store, which raises `StorageRefused` only. -/
def storeTurn : RingM Unit :=
  turn fun
    | .crash => .crash
    | .storage code => .storage code
    | .ledger _ | .unavailable => .storage (.other "storage_unavailable")

/-- The turn before a call of the ledger. `open_directory` can raise `StorageRefused` there. -/
def ledgerTurn : RingM Unit :=
  turn fun
    | .crash => .crash
    | .storage code => .storage code
    | .ledger code => .ring (.ledger code)
    | .unavailable => .unavailable

def transact (action : Action) : RingM Unit := do
  ledgerTurn
  act action

def getLedger : RingM Ledger := read World.ledger

def getMedia : RingM Media := read World.media

def getMemory : RingM Memory := read World.memory

/-- Set `state` and `reason`. -/
def setStatus (state : RingState) (reason : StatusReason) : RingM Unit :=
  modify fun w => { w with memory := { w.memory with state := state, reason := reason } }

/-- `uuid4`. -/
def freshId : RingM UUID := fun w => (.ok (w.ids.headD 0), { w with ids := w.ids.tail })

/-! ## The media store -/

def segmentAllocations : RingM Allocations := do
  storeTurn
  let media ← getMedia
  return media.files.map File.allocated

/-- `list_segments`: the size of every file. -/
def listSegments : RingM (Dict UUID Nat) := do
  storeTurn
  let media ← getMedia
  return media.files.map fun file => file.data.length

variable (s : Settings)

/-- `check`: the free bytes, refused where `additional` more would cross the reserve. -/
def check (additional : Nat) (requireReserve : Bool) : RingM Nat := do
  storeTurn
  let media ← getMedia
  require (requireReserve = true →
      s.safetyReserveBytes + roundUp additional s.allocationUnit ≤ media.available)
    (.storage .hardStop)
  return media.available

def verifySegment (segment : UUID) (length checksum : Nat) : RingM Bool := do
  require (0 < length ∧ length ≤ s.maxSegmentBytes) (.storage (.other "invalid_segment"))
  storeTurn
  let media ← getMedia
  return (media.files.get? segment).any fun file =>
    file.data.length == length && s.sha256 file.data == checksum

/-- `delete_segment`. The directory is synchronised after the file is gone, which can fail. -/
def deleteSegment (segment : UUID) : RingM Unit := do
  storeTurn
  let media ← getMedia
  if (media.files.get? segment).isSome then do
    act (.deleteFile segment)
    storeTurn
  else pure ()

/-- The clean-up of a write that failed after the file was created. -/
def cleanupSegment (segment : UUID) (failure : Failure) : RingM Unit := do
  require (failure ≠ .crash) failure
  handle storeTurn fun e =>
    fail (if e = .crash then .crash else .storage .partialCleanupFailed)
  let media ← getMedia
  require ((media.files.get? segment).isSome = true) (.storage .partialCleanupFailed)
  act (.deleteFile segment)
  fail failure

def writeSegment (segment : UUID) (data : List UInt8) : RingM Unit := do
  require (0 < data.length ∧ data.length ≤ s.maxSegmentBytes) (.storage .segmentSizeLimit)
  let _ ← check s data.length true
  storeTurn
  let media ← getMedia
  require ((media.files.get? segment).isNone = true) (.storage .segmentWriteFailed)
  act (.writeFile segment data (roundUp data.length s.allocationUnit))
  -- the checks after the allocation and after the data was written
  handle (do
    let _ ← check s 0 true
    let _ ← check s 0 true
    return) (cleanupSegment segment)

end Sentinel.Ring
