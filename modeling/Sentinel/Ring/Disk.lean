import Sentinel.Ring.World

/-!
# The disk ring

`DiskRing` of `agent/media_capture_agent/ring.py`. Every public method runs under the ring's lock, so
a call is a program on the world. Reads of the ledger do not fail here: a read error ends the call
as a refused transaction right after it would, with no other durable effect.
-/

namespace Sentinel.Ring

open Program

variable (s : Settings)

/-! ## Reads -/

/-- The allocated bytes of rows. -/
def allocatedBytes (allocations : Allocations) (rows : List Segment) : Nat :=
  (rows.map fun row => (allocations.get? row.id).getD 0).sum

def Ledger.ordinaryBytes (l : Ledger) (allocations : Allocations) : Nat :=
  allocatedBytes allocations (l.rows.filter fun row => !l.isProtected row.id)

def estimate (profiles : Profiles) (durationUs : Nat) (expected : Bool) : Except Failure Nat :=
  let result := (profiles.values.map fun profile =>
    profile.bytesFor durationUs s.allocationUnit expected).sum
  if result ≤ maxInteger then .ok result else .error (.ring .invalidNumericValue)

/-- `_ledger_capacity` on the present ledger. -/
def requireCapacity (config : RingConfig) (profiles : Profiles) (request : Request) : RingM Nat := do
  let l ← getLedger
  lift ((l.ledgerCapacity s.ledgerMaximumBytes config profiles request).mapError .ring)

def ordinaryOwned (l : Ledger) (m : Memory) (row : Segment) (now : Int) (trusted : Bool) : Bool :=
  l.pendingLoss || m.configuration.any fun c =>
    !trusted || decide (now - horizonUs c.config c.profiles < row.stop)

/-- `_clock` with `record=False`. -/
def clockRead (l : Ledger) (now : Int) (trusted : Bool) : Bool :=
  trusted && decide (l.latestClock.getD 0 ≤ now)

def reconcilePresence : RingM Unit := do
  let physical ← listSegments
  let allocations ← segmentAllocations
  let l ← getLedger
  let changes := l.rows.filterMap fun row =>
    if row.state = .stored ∧ (physical.get? row.id ≠ some row.length ∨
        (allocations.get? row.id).getD 0 < 512) then
      some (row.id, if (physical.get? row.id).isNone then SegmentState.missing else .uncertain,
        (allocations.get? row.id).getD 0)
    else none
  if changes.isEmpty then pure () else transact (.setStates changes)

/-! ## Removing segments -/

def removeSegment (segment : UUID) : RingM Unit := do
  let l ← getLedger
  require (l.isProtected segment = false) (.ring .protectedSegmentDeletionRefused)
  transact (.markDeleting segment)
  deleteSegment segment
  transact (.dropSegment segment)

/-- The loop of `_trim`: `ordinary` are the ordinary bytes left. -/
def trimRows (config : RingConfig) (allocations : Allocations) (cutoff : Int) :
    Int → List Segment → RingM Unit
  | _, [] => pure ()
  | ordinary, row :: rest =>
    if cutoff < row.stop ∧ (config.mode = .duration ∨ ordinary ≤ config.value) then pure ()
    else do
      removeSegment row.id
      trimRows config allocations cutoff (ordinary - (allocations.get? row.id).getD 0) rest

/-- `_trim` of a configured ring under trusted time. -/
def trimConfigured (c : Configuration) (now : Int) : RingM Unit := do
  let allocations ← segmentAllocations
  let l ← getLedger
  trimRows c.config allocations (now - horizonUs c.config c.profiles) (l.ordinaryBytes allocations)
    (l.selectedReclaimable now c.config)

def trim (now : Int) (trusted : Bool) : RingM Unit := do
  let m ← getMemory
  match trusted, m.configuration with
  | true, some c => trimConfigured c now
  | _, _ => pure ()

/-- Whether the reserve holds after `additional` bytes. -/
def fits (additional : Nat) : RingM Bool :=
  handle (do
    let _ ← check s additional true
    return true)
  fun e => if e = .storage .hardStop then pure false else fail e

/-- The loop of `_free_for_write`. -/
def freeRows (additional : Nat) : List Segment → RingM Unit
  | [] => do
    let _ ← check s additional true
    return
  | row :: rest => do
    let free ← fits s additional
    if free then pure ()
    else do
      removeSegment row.id
      freeRows additional rest

def freeForWrite (config : RingConfig) (length : Nat) (now : Int) (trusted : Bool) : RingM Unit := do
  let l ← getLedger
  freeRows s (length + s.ledgerHeadroom) (if trusted then l.selectedReclaimable now config else [])

/-! ## Incidents -/

/-- What `incident` reports. -/
structure IncidentDetails where
  incidentId : UUID
  triggerReason : IncidentReason
  startedAtUs : Int
  targetEndUs : Int
  completedAtUs : Option Int
  expiresAtUs : Option Int
  state : IncidentState
  byteLength : Nat
  allocatedBytes : Nat
  clockUncertain : Bool
  /-- For each source its covered intervals and its gaps. -/
  coverage : List (UUID × List (Int × Int) × List (Int × Int))
  hasGaps : Bool

/-- `_incident`. -/
def incidentDetails (l : Ledger) (incident : Incident) (now : Int) : IncidentDetails :=
  let stop := if incident.state = .active then max incident.start (min now incident.stop)
    else incident.stop
  let rows := l.linked incident.id
  let coverage := incident.sources.map fun source =>
    (source, intervalsAndGaps ((rows.filter fun row =>
      row.state == .stored && row.clockTrusted && row.source == source).map fun row =>
        (row.start, row.stop)) incident.start stop)
  let hasGaps := coverage.any fun item => !item.2.2.isEmpty
  { incidentId := incident.id, triggerReason := incident.reason, startedAtUs := incident.start
    targetEndUs := incident.stop, completedAtUs := incident.completed
    expiresAtUs := incident.expires
    state := if incident.state = .complete ∧ (hasGaps ∨ incident.clockUncertain) then .partialCoverage
      else incident.state
    byteLength := ((rows.filter fun row => row.state == .stored).map Segment.length).sum
    allocatedBytes := (rows.map Segment.allocated).sum
    clockUncertain := incident.clockUncertain, coverage := coverage, hasGaps := hasGaps }

/-- One segment of the loop of `_delete_incident`. -/
def unlinkSegment (incident : UUID) (now : Int) (trusted : Bool) (row : Segment) : RingM Unit := do
  let l ← getLedger
  let m ← getMemory
  let keep := ordinaryOwned l m row now trusted
  ledgerTurn
  act (.unlink incident row.id (!(l.removeEdge incident row.id).isProtected row.id && !keep))
  let l ← getLedger
  if l.isProtected row.id = false ∧ keep = false then removeSegment row.id else pure ()

/-- `_delete_incident` of a row that is not `deleted`. -/
def deleteRetained (incident : UUID) (now : Int) (trusted : Bool) : RingM Unit := do
  transact (.markIncidentDeleting incident)
  let l ← getLedger
  forEach (unlinkSegment incident now trusted) (l.linked incident)
  transact (.markIncidentDeleted incident)

/-- `_delete_incident`. Without trusted time `now` is not read. -/
def deleteIncidentAt (incident : UUID) (now : Int) (trusted : Bool) : RingM Unit := do
  let l ← getLedger
  if (l.incidents.find? incident).any fun row => row.state != .deleted then
    deleteRetained incident now trusted
  else pure ()

/-- Completion of one active incident in `_tick`. -/
def completeAt (now : Int) (incident : Incident) : RingM Unit := do
  let l ← getLedger
  let state := if (incidentDetails l incident now).hasGaps || incident.clockUncertain
    then IncidentState.partialCoverage else .complete
  transact (.completeIncident incident.id state incident.stop (incident.stop + retention))

/-- `_tick` once the interrupted deletions are resumed, under trusted time. -/
def expireAt (now : Int) : RingM Unit := do
  let l ← getLedger
  forEach (completeAt now) (l.incidents.rows.filter fun row =>
    row.state == .active && decide (row.stop ≤ now))
  let l ← getLedger
  forEach (fun row => deleteIncidentAt row.id now true) (l.incidents.rows.filter fun row =>
    (row.state == .complete || row.state == .partialCoverage) &&
      row.expires.any fun expires => decide (expires ≤ now))

/-- `_tick`. -/
def tickAt (now : Int) (trusted : Bool) : RingM Unit := do
  require (IsInteger now) (.ring .invalidNumericValue)
  let l ← getLedger
  forEach (fun row => deleteIncidentAt row.id now trusted)
    (l.incidents.rows.filter fun row => row.state == .deleting)
  if trusted then expireAt now else transact .markUncertain

/-- The transaction of `_preserve`. -/
def insertIncident (c : Configuration) (reason : IncidentReason) (start stop : Int) (trusted : Bool)
    (clearingPending : Bool) : RingM UUID := do
  let identifier ← freshId
  ledgerTurn
  let l ← getLedger
  let segments := (l.matching c.profiles (start, stop)).map Segment.id
  -- the primary keys
  require (l.incidents.Free identifier ∧
    ∀ segment ∈ segments, l.protection.Free ⟨identifier, segment⟩) .unavailable
  act (.insertIncident
    { id := identifier, reason := reason, start := start, stop := stop, completed := none
      expires := none, state := .active, clockUncertain := !trusted, sources := c.profiles.keys }
    segments clearingPending)
  return identifier

/-- The configuration of the ring, or a refusal. -/
def configured (refusal : Refusal) : RingM Configuration := do
  let m ← getMemory
  match m.configuration with
  | some c => pure c
  | none => fail (.ring refusal)

/-- `_preserve`; `clock` is the call of `_clock` it makes. -/
def preserveAt (clock : RingM Bool) (reason : IncidentReason) (start stop now : Int)
    (clearingPending : Bool) : RingM UUID := do
  require (IsInteger start ∧ IsInteger stop ∧ IsInteger now ∧ IsInteger (stop + retention))
    (.ring .invalidNumericValue)
  require (start < stop) (.ring .invalidPreservationWindow)
  let c ← configured .invalidPreservationWindow
  let _ ← requireCapacity s c.config c.profiles { proposal := some (start, stop) }
  let trusted ← clock
  -- recovered trusted time can add the incident of a pending loss before this one
  let _ ← requireCapacity s c.config c.profiles { proposal := some (start, stop) }
  let identifier ← insertIncident c reason start stop trusted clearingPending
  tickAt now trusted
  return identifier

/-- The incident of a pending loss, made by `_clock` at the first trusted time. Its own call of
`_clock` is untrusted and records nothing. -/
def materialise (now : Int) : RingM Unit := do
  let l ← getLedger
  let start := (l.rows.map Segment.start).foldl min (max 0 (now - pre))
  let _ ← preserveAt s (pure false) .mainConnectionLost start (now + post) now true
  return

/-- `_clock` with `record=True`. -/
def clock (now : Int) (trusted : Bool) : RingM Bool := do
  let l ← getLedger
  if clockRead l now trusted then do
    transact (.recordClock now)
    let l ← getLedger
    let m ← getMemory
    whenever (m.configuration.isSome = true ∧ l.pendingLoss = true) (materialise s now)
    return true
  else return false

/-! ## Status -/

/-- What `_budget` returns. -/
structure Budget where
  filesystemFree : Nat
  requiredAdditional : Nat
  requiredPreAllocated : Nat
  reclaimableAllocated : Nat
  safetyReserve : Nat
  ledgerHeadroom : Nat
  deriving DecidableEq, Repr

def budget (profiles : Profiles) (now : Int) (clockTrusted : Bool) : RingM Budget := do
  reconcilePresence
  let free ← check s 0 false
  let allocations ← segmentAllocations
  let l ← getLedger
  let m ← getMemory
  let preBytes := allocatedBytes allocations (l.rows.filter fun row =>
    row.state == .stored && row.clockTrusted && (profiles.get? row.source).isSome &&
      row.overlaps (now - pre) now)
  let eligible := if clockTrusted then m.configuration.elim [] fun c =>
    l.selectedReclaimable now c.config else []
  let postBytes ← lift (estimate s profiles post false)
  let bothBytes ← lift (estimate s profiles (pre + post) false)
  return { filesystemFree := free
           requiredAdditional := max postBytes (bothBytes - preBytes) + s.ledgerHeadroom
           requiredPreAllocated := preBytes
           reclaimableAllocated := allocatedBytes allocations eligible
           safetyReserve := s.safetyReserveBytes, ledgerHeadroom := s.ledgerHeadroom }

def nextWriteRefused (c : Configuration) (now : Int) (b : Budget) (clockTrusted atBound : Bool) :
    RingM Bool := do
  let allocations ← segmentAllocations
  let l ← getLedger
  return NextWrite.refused
    { ledger := l, configuration := c, allocations := allocations, unit := s.allocationUnit
      headroom := s.ledgerHeadroom, free := b.filesystemFree, reserve := b.safetyReserve, now := now
      clockTrusted := clockTrusted, atBound := atBound }

/-- What `_status` reports of a configured ring. -/
structure RingStatus where
  budget : Budget
  mode : RingMode
  selectedValue : Nat
  selectedUnit : String
  capacityHorizonUs : Option Nat
  ledgerMaximumBytes : Nat
  ledgerRequiredBytes : Nat
  projectedMaximumBytes : Nat
  projectedExpectedBytes : Nat
  estimatedDurationUs : Option Nat
  ordinaryAllocatedBytes : Nat
  protectedAllocatedBytes : Nat
  orphanAllocatedBytes : Nat
  state : RingState
  reason : StatusReason
  /-- For each source its covered intervals and its gaps. -/
  preLossCoverage : List (UUID × List (Int × Int) × List (Int × Int))

/-- What `status` returns. -/
inductive StatusReport
  /-- `degraded` with reason `not_configured`. -/
  | notConfigured
  | report (status : RingStatus)
  /-- `STORAGE_HARD_STOP` after a refusal: the state's reason, or the code of the refusal. -/
  | refused (reason : StatusReason ⊕ Refusal) (safetyReserve : Nat) (mode : Option RingMode)
      (selectedValue : Option Nat)

/-- `intervals_and_gaps` of every source over the pre-loss window. -/
def preLossCoverage (l : Ledger) (profiles : Profiles) (now : Int) :
    List (UUID × List (Int × Int) × List (Int × Int)) :=
  profiles.keys.map fun source =>
    (source, intervalsAndGaps ((l.rows.filter fun row =>
      row.source == source && row.state == .stored && row.clockTrusted).map fun row =>
        (row.start, row.stop)) (now - pre) now)

/-- The states below storage pressure, in their order. -/
def calmState (l : Ledger) (m : Memory) (profiles : Profiles) (orphanBytes : Nat) (now : Int)
    (clockTrusted : Bool) : RingState × StatusReason :=
  if l.pendingLoss then (.degraded, .lossTimeAnchorUnavailable)
  else if clockTrusted = false ∨
      (l.incidents.rows.any fun row => row.state == .active && row.clockUncertain) then
    (.degraded, .clockUncertain)
  else if l.rows.any fun row => row.state != .stored && l.isProtected row.id then
    (.degraded, .protectedEvidenceIntegrityGap)
  else if l.incidents.rows.any fun row =>
      row.state == .partialCoverage && row.expires.any fun expires => decide (now < expires) then
    (.degraded, .protectedIncidentPartial)
  else if orphanBytes ≠ 0 then (.degraded, .orphanMediaPresent)
  else if (preLossCoverage l profiles now).any fun item => !item.2.2.isEmpty then
    (.degraded, .preLossCoverageGap)
  else if l.rows.any fun row => row.state != .stored && !l.isProtected row.id &&
      ordinaryOwned l m row now clockTrusted then
    (.degraded, .ordinaryRingIntegrityGap)
  else (.healthy, .protectionReady)

/-- The state and reason of a configured ring. -/
def statusState (c : Configuration) (now : Int) (clockTrusted : Bool) (b : Budget)
    (ledgerPressure : Bool) (ordinaryBytes orphanBytes : Nat) : RingM (RingState × StatusReason) := do
  if b.filesystemFree < b.safetyReserve then
    return (.storageHardStop, .safetyReserveUnavailable)
  else do
    let refused ← nextWriteRefused s c now b clockTrusted false
    if refused then return (.storageHardStop, .segmentWriteRefusedAtReserve)
    else if c.config.mode = .capacity ∧ c.config.value < ordinaryBytes then
      return (.storagePressure, .ordinaryCapacityExhausted)
    else if ledgerPressure then return (.storagePressure, .insufficientLedgerCapacity)
    else if b.filesystemFree + b.reclaimableAllocated < b.requiredAdditional + b.safetyReserve then
      return (.storagePressure, .postLossHeadroomReduced)
    else do
      let atRisk ← nextWriteRefused s c now b clockTrusted true
      if atRisk then return (.storagePressure, .segmentWriteAtRiskAtMaximumBitrate)
      else do
        let l ← getLedger
        let m ← getMemory
        return calmState l m c.profiles orphanBytes now clockTrusted

/-- The reservation `_status` reports, and whether it exceeds the ledger. -/
def statusCapacity (c : Configuration) (now : Int) : RingM (Bool × Nat) := do
  let l ← getLedger
  match l.ledgerCapacity s.ledgerMaximumBytes c.config c.profiles
      { proposal := if l.activeIncidents.isEmpty then some (now - pre, now + post) else none } with
  | .ok required => pure (false, required)
  | .error (.insufficientLedgerCapacity required) => pure (true, required)
  | .error refusal => fail (.ring refusal)

/-- The duration that the capacity holds at the maximum bitrate. -/
def estimatedDuration (value : Nat) (profiles : Profiles) : Nat :=
  let right := (profiles.values.map fun profile =>
    (value / roundUp (profile.segmentBytes false) s.allocationUnit - 2) * profile.segmentDurationUs
    ).foldl min maxInteger
  bisect (fun durationUs => decide ((profiles.values.map fun profile =>
    profile.bytesFor durationUs s.allocationUnit false).sum ≤ value)) right 0 right

/-- `_status` of a configured ring. -/
def statusConfigured (c : Configuration) (now : Int) (clockTrusted : Bool) : RingM RingStatus := do
  ledgerTurn
  let l ← getLedger
  let clockTrusted := clockRead l now clockTrusted
  let b ← budget s c.profiles now clockTrusted
  let (ledgerPressure, ledgerRequired) ← statusCapacity s c now
  let allocated ← segmentAllocations
  let l ← getLedger
  let orphanBytes := ((allocated.entries.filter fun item =>
    !l.rows.any fun row => row.id == item.1).map Prod.snd).sum
  let ordinaryBytes := l.ordinaryBytes allocated
  let protectedBytes := allocatedBytes allocated (l.rows.filter fun row => l.isProtected row.id)
  let verdict ← statusState s c now clockTrusted b ledgerPressure ordinaryBytes orphanBytes
  setStatus verdict.1 verdict.2
  let durationUs := match c.config.mode with
    | .duration => c.config.value * second
    | .capacity => pre
  let _ ← lift (estimate s c.profiles durationUs false)
  let _ ← lift (estimate s c.profiles durationUs true)
  let reported := match c.config.mode with
    | .duration => durationUs
    | .capacity => estimatedDuration s c.config.value c.profiles
  let maximumBytes ← lift (estimate s c.profiles reported false)
  let expectedBytes ← lift (estimate s c.profiles reported true)
  return { budget := b, mode := c.config.mode, selectedValue := c.config.value
           selectedUnit := if c.config.mode = .duration then "seconds" else "bytes"
           capacityHorizonUs :=
             if c.config.mode = .capacity then some (horizonUs c.config c.profiles) else none
           ledgerMaximumBytes := s.ledgerMaximumBytes, ledgerRequiredBytes := ledgerRequired
           projectedMaximumBytes := maximumBytes, projectedExpectedBytes := expectedBytes
           estimatedDurationUs := if c.config.mode = .capacity then some reported else none
           ordinaryAllocatedBytes := ordinaryBytes, protectedAllocatedBytes := protectedBytes
           orphanAllocatedBytes := orphanBytes, state := verdict.1, reason := verdict.2
           preLossCoverage := preLossCoverage l c.profiles now }

/-- `_status`. -/
def statusAt (now : Int) (clockTrusted : Bool) : RingM StatusReport := do
  let m ← getMemory
  match m.configuration with
  | none => pure .notConfigured
  | some c => do
    let status ← statusConfigured s c now clockTrusted
    return .report status

/-! ## Configuration -/

/-- The rows of a capacity ring that are already eligible for its FIFO: `excess` are the ordinary
bytes over the limit. -/
def fifoEligible (allocations : Allocations) (cutoff : Int) : Int → List Segment → List Segment
  | _, [] => []
  | excess, row :: rest =>
    if excess ≤ 0 ∧ cutoff < row.stop then []
    else row :: fifoEligible allocations cutoff (excess - (allocations.get? row.id).getD 0) rest

/-- The rows that the configuration in force gives up by itself. -/
def currentReclaimable (c : Configuration) (now : Int) : RingM (List Segment) := do
  match c.config.mode with
  | .duration => do
    let l ← getLedger
    return l.selectedReclaimable now c.config
  | .capacity => do
    let allocations ← segmentAllocations
    let l ← getLedger
    return fifoEligible allocations (now - horizonUs c.config c.profiles)
      (l.ordinaryBytes allocations - c.config.value) (l.selectedReclaimable now c.config)

def configurationReclaimable (now : Int) (proposed : RingConfig) : RingM (List Segment) := do
  let l ← getLedger
  let m ← getMemory
  match m.configuration with
  | none => return l.selectedReclaimable now proposed
  | some c => do
    let current ← currentReclaimable c now
    return (l.selectedReclaimable now proposed).filter fun row =>
      current.any fun allowed => allowed.id == row.id

/-- The bytes of the selected ring at the maximum bitrate. -/
def selectedBytes (config : RingConfig) (profiles : Profiles) : Except Failure Nat :=
  match config.mode with
  | .duration => estimate s profiles (config.value * second) false
  | .capacity => .ok config.value

def selectedTargetFits (config : RingConfig) (profiles : Profiles) : RingM Unit := do
  let selected ← lift (selectedBytes s config profiles)
  let allocations ← segmentAllocations
  let l ← getLedger
  let free ← check s 0 false
  require (selected + s.safetyReserveBytes + s.ledgerHeadroom ≤ free + l.ordinaryBytes allocations)
    (.ring .selectedTargetExceedsSafeFilesystem)

def capacityTransitionFits (config : RingConfig) (profiles : Profiles) (now : Int) (trusted : Bool) :
    RingM Unit := do
  match config.mode with
  | .duration => pure ()
  | .capacity => do
    let allocations ← segmentAllocations
    let l ← getLedger
    let retained := l.rows.filter fun row =>
      !(l.isProtected row.id || (trusted && decide (row.stop ≤ now - pre)))
    let carryover := retained.filter fun row =>
      !(trusted && row.state == .stored && row.trustedProfile profiles &&
        (profiles.get? row.source).any fun profile =>
          decide ((allocations.get? row.id).getD 0 ≤
            roundUp (profile.segmentBytes false) s.allocationUnit))
    let transition ← lift (estimate s profiles pre false)
    let nextBatch := (profiles.values.map fun profile =>
      roundUp (profile.segmentBytes false) s.allocationUnit).sum
    require (max (transition + allocatedBytes allocations carryover)
      (allocatedBytes allocations retained + nextBatch) ≤ config.value)
      (.ring .capacityTransitionExceedsLimit)

def durationTransitionFits (config : RingConfig) (profiles : Profiles) (now : Int) (trusted : Bool) :
    RingM Unit := do
  match config.mode with
  | .capacity => pure ()
  | .duration => do
    let allocations ← segmentAllocations
    let l ← getLedger
    let kept := l.rows.filter fun row =>
      trusted && !l.isProtected row.id && row.state == .stored &&
        decide (now - (config.value * second : Nat) < row.stop) && row.trustedProfile profiles &&
        decide (512 ≤ (allocations.get? row.id).getD 0) &&
        (profiles.get? row.source).any fun profile =>
          decide ((allocations.get? row.id).getD 0 ≤
            roundUp (profile.segmentBytes false) s.allocationUnit)
    let target ← lift (estimate s profiles (config.value * second) false)
    let free ← check s 0 false
    require (target + s.safetyReserveBytes + s.ledgerHeadroom ≤
      free + allocatedBytes allocations kept) (.ring .durationTransitionExceedsFilesystem)

/-- The reclaiming loop of `configure`: remove rows until `needed` bytes are free. -/
def reclaimRows (needed : Nat) : List Segment → RingM Unit
  | [] => pure ()
  | row :: rest => do
    let free ← check s 0 false
    if needed ≤ free then pure ()
    else do
      removeSegment row.id
      reclaimRows needed rest

/-- The `history_after` of a new configuration: a changed or new profile starts a new history. -/
def historyAfter (l : Ledger) (m : Memory) (profiles : List SegmentProfile) : Dict UUID Int :=
  profiles.foldl (fun history profile =>
    let last := if m.profiles.get? profile.sourceId = some profile
      then m.configuration.bind fun c => c.historyAfter.get? profile.sourceId
      else l.maxEnd profile.sourceId fun _ => true
    last.elim history fun last => history.set profile.sourceId last) .empty

/-- The mapping from source to profile. -/
def profileMap (profiles : List SegmentProfile) : Profiles :=
  profiles.foldl (fun mapping profile => mapping.set profile.sourceId profile) .empty

/-- The admission of a configuration, up to the removal of media. -/
def admitConfiguration (config : RingConfig) (mapping : Profiles) (now : Int) (trusted : Bool) :
    RingM (Nat × List Segment) := do
  let preBytes ← lift (estimate s mapping pre false)
  require (config.mode = .capacity → preBytes ≤ config.value) (.ring .insufficientPreLossCapacity)
  require (config.mode = .duration → IsInteger (config.value * second : Nat))
    (.ring .invalidNumericValue)
  let _ ← lift (selectedBytes s config mapping)
  let b ← budget s mapping now trusted
  let reclaimable ← (if trusted then configurationReclaimable now config else pure [])
  let allocations ← segmentAllocations
  require (b.requiredAdditional + b.safetyReserve ≤
    b.filesystemFree + allocatedBytes allocations reclaimable)
    (.ring .insufficientSimultaneousPrePostBudget)
  selectedTargetFits s config mapping
  capacityTransitionFits s config mapping now trusted
  durationTransitionFits s config mapping now trusted
  let _ ← requireCapacity s config mapping { proposal := some (now - pre, now + post) }
  return (b.requiredAdditional, reclaimable)

def commitConfiguration (configuration : Configuration) : RingM Unit := do
  ledgerTurn
  act (.storeConfiguration configuration)
  modify fun w => { w with memory := { w.memory with configuration := some configuration } }

/-- `configure` once its arguments are checked. -/
def configureRing (config : RingConfig) (profiles : List SegmentProfile) (now : Int)
    (clockTrusted : Bool) : RingM StatusReport := do
  let l ← getLedger
  require (l.pendingLoss = false) (.ring .protectionConfigurationBusy)
  let trusted := clockRead l now clockTrusted
  require (l.activeIncidents.isEmpty = true) (.ring .protectionConfigurationBusy)
  let mapping := profileMap profiles
  let (required, reclaimable) ← admitConfiguration s config mapping now trusted
  reclaimRows s (required + s.safetyReserveBytes) reclaimable
  let _ ← check s required true
  selectedTargetFits s config mapping
  durationTransitionFits s config mapping now trusted
  let l ← getLedger
  let m ← getMemory
  commitConfiguration ⟨config, mapping, historyAfter l m profiles⟩
  trim now trusted
  statusAt s now trusted

/-! ## Appending -/

/-- Set the status and refuse. -/
def refuse {α : Type} (state : RingState) (reason : StatusReason) (refusal : Refusal) : RingM α := do
  setStatus state reason
  fail (.ring refusal)

def requireOr (c : Prop) [Decidable c] (refusal : RingM Unit) : RingM Unit :=
  if c then pure () else refusal

/-- The incidents a new segment belongs to. Untrusted time cannot apply an expiry. -/
def Ledger.incidentsFor (l : Ledger) (source : UUID) (start stop now : Int) (trusted : Bool) :
    List Incident :=
  l.incidents.rows.filter fun incident =>
    incident.state.retained && decide (incident.start < stop) && decide (start < incident.stop) &&
      (!trusted || incident.expires.all fun expires => decide (now < expires)) &&
      decide (source ∈ incident.sources)

/-- Remove rows until `needed` more bytes fit a capacity of `value`; the ordinary bytes left. -/
def roomRows (allocations : Allocations) (needed value : Int) : Int → List Segment → RingM Int
  | ordinary, [] => pure ordinary
  | ordinary, row :: rest =>
    if ordinary + needed ≤ value then pure ordinary
    else do
      removeSegment row.id
      roomRows allocations needed value (ordinary - (allocations.get? row.id).getD 0) rest

/-- The physical limit of a capacity ring, before a segment is written. -/
def makeRoom (config : RingConfig) (length : Nat) (now : Int) (trusted : Bool) : RingM Unit := do
  let allocations ← segmentAllocations
  let l ← getLedger
  let needed : Int := roundUp length s.allocationUnit
  let ordinary ← roomRows allocations needed config.value (l.ordinaryBytes allocations)
    (if trusted then l.reclaimable now else [])
  requireOr (ordinary + needed ≤ config.value)
    (refuse .storagePressure .ordinaryCapacityExhausted .ordinaryCapacityExhausted)

def insertSegment (row : Segment) (incidents : List Incident) : RingM Unit := do
  ledgerTurn
  let l ← getLedger
  -- the primary keys
  require (l.segments.Free row.id ∧ ∀ incident ∈ incidents, l.protection.Free ⟨incident.id, row.id⟩)
    .unavailable
  act (.insertSegment row incidents)

/-- The provisional file of a segment that is not admitted. -/
def discardSegment (segment : UUID) (code : StorageCode) : RingM Unit := do
  deleteSegment segment
  fail (.storage code)

/-- The physical limit of a capacity ring, after a segment is written. -/
def checkRoom (config : RingConfig) (segment : UUID) : RingM Unit := do
  let allocations ← segmentAllocations
  let l ← getLedger
  requireOr (l.ordinaryBytes allocations ≤ config.value)
    (discardSegment segment .actualAllocationExceededCapacity)

/-- The write of a segment: the allocation it got. -/
def storeSegment (config : RingConfig) (segment : UUID) (data : List UInt8) (now : Int)
    (trusted ordinary : Bool) : RingM Nat := do
  freeForWrite s config data.length now trusted
  writeSegment s segment data
  let allocations ← segmentAllocations
  match allocations.get? segment with
  | none => fail .keyError
  | some allocated => do
    requireOr (512 ≤ allocated) (discardSegment segment .unsupportedSegmentAllocation)
    whenever (config.mode = .capacity ∧ ordinary = true) (checkRoom config segment)
    return allocated

/-- The handler of a refused write: the row is kept as `missing`. -/
def writeRefused {α : Type} (segment : UUID) (failure : Failure) : RingM α := do
  match failure with
  | .storage code => do
    transact (.markMissing segment)
    refuse .storageHardStop
      (if code = .hardStop then .segmentWriteRefusedAtReserve else .storage code)
      .segmentStorageRefused
  | e => fail e

/-- The checks of `append` against the profile and the earlier segments of the source. -/
def checkSegment (source : UUID) (profile : SegmentProfile) (start stop : Int) (length : Nat)
    (now : Int) (trusted : Bool) : RingM Unit := do
  requireOr (stop - start = profile.segmentDurationUs ∧ stop ≤ now ∧ 0 < length ∧
      length ≤ profile.segmentBytes false)
    (refuse .degraded .profileBoundViolation .profileBoundViolation)
  let l ← getLedger
  let previous := l.maxEnd source fun row => !trusted || row.clockTrusted
  requireOr (trusted = true ∨ previous = some start) do
    tickAt now false
    refuse .degraded .clockUncertain .clockUncertain
  requireOr (previous.all (fun last => decide (last ≤ start)) = true)
    (refuse .degraded .nonMonotonicSegment .nonMonotonicSegment)

/-- The profile of a source of the configured ring. -/
def configuredSource (source : UUID) : RingM (Configuration × SegmentProfile) := do
  let c ← configured .sourceNotConfigured
  match c.profiles.get? source with
  | some profile => pure (c, profile)
  | none => fail (.ring .sourceNotConfigured)

/-- The part of `append` from the admission of the segment to the end of its write. -/
def admitSegment (c : Configuration) (source : UUID) (start stop : Int) (data : List UInt8)
    (now : Int) (trusted : Bool) : RingM UUID := do
  let identifier ← freshId
  let l ← getLedger
  let incidents := l.incidentsFor source start stop now trusted
  let _ ← requireCapacity s c.config c.profiles
    { additionalSegments := if trusted then 0 else 1
      additionalProtections := if trusted then 0 else incidents.length
      reactivating := incidents.filter fun incident => incident.state != .active }
  trim now trusted
  whenever (c.config.mode = .capacity ∧ incidents = [])
    (makeRoom s c.config data.length now trusted)
  insertSegment
    { id := identifier, source := source, start := start, stop := stop, length := data.length
      allocated := 0, checksum := s.sha256 data, state := .writing, clockTrusted := trusted }
    incidents
  let allocated ← handle (storeSegment s c.config identifier data now trusted incidents.isEmpty)
    (writeRefused identifier)
  transact (.markStored identifier allocated)
  return identifier

/-- `append` once its arguments are checked. -/
def appendSegment (source : UUID) (start stop : Int) (data : List UInt8) (now : Int)
    (clockTrusted : Bool) : RingM UUID := do
  let trusted ← clock s now clockTrusted
  let (c, profile) ← configuredSource source
  checkSegment source profile start stop data.length now trusted
  let identifier ← admitSegment s c source start stop data now trusted
  tickAt now trusted
  trim now trusted
  let _ ← statusAt s now trusted
  return identifier

/-! ## Connection, preservation and maintenance -/

def observeLoss (now : Int) (trusted : Bool) : RingM (Option UUID) := do
  let c ← configured .invalidPreservationWindow
  let l ← getLedger
  match if trusted then some now else l.lossAnchor c.profiles with
  | none => do
    transact .setPendingLoss
    setStatus .degraded .lossTimeAnchorUnavailable
    return none
  | some anchor => do
    let incident ← preserveAt s (clock s now trusted) .mainConnectionLost (max 0 (anchor - pre))
      (anchor + post) now false
    return some incident

/-- `observe_connection` once its arguments are checked. -/
def observe (authenticated connected unexpected : Bool) (now : Int) (clockTrusted : Bool) :
    RingM (Option UUID) := do
  let trusted ← clock s now clockTrusted
  let m ← getMemory
  let incident ← (if m.connected && !(authenticated && connected) && unexpected
    then observeLoss s now trusted else pure none)
  modify fun w => { w with memory := { w.memory with connected := authenticated && connected } }
  return incident

/-- `tick` once its arguments are checked. -/
def tickRing (now : Int) (clockTrusted : Bool) : RingM StatusReport := do
  let trusted ← clock s now clockTrusted
  tickAt now trusted
  trim now trusted
  statusAt s now trusted

/-- `delete_incident` once its arguments are checked. -/
def deleteIncident (incident : UUID) (now : Int) (clockTrusted : Bool) : RingM Unit := do
  let trusted ← clock s now clockTrusted
  deleteIncidentAt incident now trusted
  trim now trusted

/-- `incident` once its arguments are checked. -/
def readIncident (incident : UUID) (now : Int) : RingM IncidentDetails := do
  reconcilePresence
  let l ← getLedger
  match l.incidents.find? incident with
  | none => fail (.ring .incidentNotFound)
  | some row => return incidentDetails l row now

/-! ## Opening -/

/-- The states that `_recover` finds for rows that are not being deleted. -/
def recoveredStates (physical : Dict UUID Nat) (allocated : Allocations) :
    List Segment → RingM (List (UUID × SegmentState × Nat))
  | [] => pure []
  | row :: rest => do
    let valid ← (if (physical.get? row.id).isSome
      then verifySegment s row.id row.length row.checksum else pure false)
    let allocation := (allocated.get? row.id).getD 0
    let state := if (physical.get? row.id).isNone then SegmentState.missing
      else if valid && decide (512 ≤ allocation) then .stored else .uncertain
    let states ← recoveredStates physical allocated rest
    return (row.id, state, allocation) :: states

def recover : RingM Unit := do
  let physical ← listSegments
  let allocated ← segmentAllocations
  ledgerTurn
  let l ← getLedger
  let states ← recoveredStates s physical allocated
    (l.segments.rows.filter fun row => row.state != .deleting)
  act (.setStates states)
  whenever ((states.any fun change => change.2.1 != .stored) = true)
    (setStatus .degraded .segmentIntegrityGap)
  let l ← getLedger
  forEach (fun row => removeSegment row.id)
    (l.segments.rows.filter fun row => row.state == .deleting)
  let l ← getLedger
  forEach (fun row => deleteIncidentAt row.id 0 false)
    (l.incidents.rows.filter fun row => row.state == .deleting)

/-- The constructor of `DiskRing`. -/
def openRing : RingM Unit := do
  ledgerTurn
  storeTurn
  let l ← getLedger
  modify fun w => { w with memory := { configuration := l.configuration } }
  match l.configuration with
  | none => recover s
  | some c => do
    let _ ← requireCapacity s c.config c.profiles {}
    recover s

/-- `_operation`: how failures of a public method reach its caller. -/
def operation {α : Type} (body : RingM α) : RingM α :=
  handle (do
    ledgerTurn
    body)
  fun
    | .unavailable => do
      setStatus .storageHardStop (.ledger .unavailable)
      fail (.ring (.ledger .unavailable))
    | .ring (.ledger code) => do
      setStatus .storageHardStop (.ledger code)
      fail (.ring (.ledger code))
    | .storage code => do
      setStatus .storageHardStop (.storage code)
      fail (.ring .mediaStorageUnavailable)
    | e => fail e

/-- `status` once its arguments are checked. -/
def readStatus (now : Int) (clockTrusted : Bool) : RingM StatusReport :=
  handle (operation (statusAt s now clockTrusted)) fun
    | .ring refusal => do
      let m ← getMemory
      return .refused (if m.state = .storageHardStop then .inl m.reason else .inr refusal)
        s.safetyReserveBytes (m.configuration.map fun c => c.config.mode)
        (m.configuration.map fun c => c.config.value)
    | e => fail e

end Sentinel.Ring
