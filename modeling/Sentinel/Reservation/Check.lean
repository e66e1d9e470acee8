import Sentinel.Lib.History

/-!
# The session gate

`epoch`, `admit`, `_close`, `_publish`, `_after_evaluation` and the checks of
`HostnameReservationCheck` in `server/app/auth/reservation.py`, as threads that interleave. A thread
is at a program point; some points lie inside the gate lock or the check lock, and a thread moves to
such a point only while no other thread holds the lock. What the enumerations and `evaluate` find,
and the outcomes of the session revoker, are answers of the environment.

`exception_change_lock` is always taken together with `_check_lock`; they are one lock here. Checks are
run by the process that built the gate. The copy of the gate in another process is never read: every
entry compares the process first.
-/

namespace Sentinel.Reservation

/-- A thread. -/
abbrev Tid := Nat

/-- A process. -/
abbrev Pid := Nat

/-- Why a check fails. -/
inductive Reason
  | isolationUnstated
  | listenerEnumerationUnavailable
  | listenerEnumerationTimeout
  | routeEnumerationUnavailable
  | routeEnumerationTimeout
  | unexpectedListener
  | unexpectedRoute
  | mappingMissing
  | humanListenerMissing
  | listenerExceptionsUnreadable
  | listenerExceptionsOutdated
  | listenerOwnerUnverified
  | proxyListenerMissing
  | upstreamCreatedInInitScope
  | sessionRevocationUnavailable
  | sessionRevocationFailed
  | hostnameResolutionUnavailable
  | hostnameResolutionTimeout
  | reservedAddressesChanged
  deriving DecidableEq, Repr

/-- Membership in `EXPOSURE_REASONS`. -/
def Reason.exposure : Reason → Bool
  | .unexpectedListener | .unexpectedRoute | .listenerEnumerationUnavailable
  | .listenerEnumerationTimeout | .routeEnumerationUnavailable | .routeEnumerationTimeout
  | .reservedAddressesChanged => true
  | _ => false

/-- What a check is run for. -/
inductive CheckKind
  | startup
  | daily
  | retry
  | configuration
  deriving DecidableEq, Repr

/-- `ReservationVerdict`, with the check of its `__post_init__`. -/
structure Verdict where
  isOpen : Bool
  reasons : List Reason
  check : Option CheckKind
  consistent : isOpen = true → reasons = []

def Verdict.closed : Verdict := ⟨false, [], none, nofun⟩

/-- The verdict of a check that found the reasons. -/
def Verdict.ofReasons (reasons : List Reason) (kind : CheckKind) : Verdict :=
  ⟨reasons.isEmpty, reasons, some kind, List.isEmpty_iff.mp⟩

/-- What the gate and the checks keep in memory. -/
structure Gate where
  verdict : Verdict := .closed
  /-- Advanced every time an open verdict closes. -/
  epoch : Nat := 0
  revocationRequired : Bool := false
  revocationDurable : Bool := true
  revokedWhileClosed : Bool := false
  exposureRecorded : Bool := false
  revokedInCheck : Bool := false
  everOpened : Bool := false
  markerFailures : Nat := 0

def Gate.publish (g : Gate) (verdict : Verdict) : Gate :=
  { g with
    epoch := if g.verdict.isOpen && !verdict.isOpen then g.epoch + 1 else g.epoch
    verdict := verdict }

def Gate.close (g : Gate) : Gate :=
  g.publish ⟨false, g.verdict.reasons, g.verdict.check, nofun⟩

/-- What `_load_revocation_state` does with the answer of `exposure_pending`; `none` if it raised. -/
def Gate.loadRevocationState (g : Gate) (stored : Option Bool) : Gate :=
  { g with
    revocationRequired := g.revocationRequired || decide (stored ≠ some false)
    exposureRecorded := g.exposureRecorded || decide (stored = some true) }

def Gate.reopened (g : Gate) : Gate :=
  { g with
    revocationRequired := false
    revocationDurable := true
    revokedWhileClosed := false
    exposureRecorded := false
    markerFailures := 0 }

def Gate.markerFailed (g : Gate) : Gate :=
  if g.exposureRecorded then g else { g with markerFailures := g.markerFailures + 1 }

/-- Where a thread stands. -/
inductive Pc
  | idle
  | epochWaiting
  | epochReading
  | working
  | admitWaiting (epoch : Option Nat)
  | admitChecking (epoch : Option Nat)
  /-- In the block of `admit`. -/
  | inside (epoch : Nat)
  | checkWaiting (kind : CheckKind)
  | checkStarting (kind : CheckKind)
  /-- `_close` of a check, before the gate lock. -/
  | closeWaiting (kind : CheckKind)
  | closing (kind : CheckKind)
  | closed (kind : CheckKind)
  | enumerating (kind : CheckKind)
  | evaluated (kind : CheckKind) (reasons : List Reason)
  | deciding (kind : CheckKind) (reasons : List Reason)
  /-- At `record_exposure` of `_make_durable`. -/
  | marking (kind : CheckKind) (reasons : List Reason)
  /-- At the revocation of `_make_durable`. -/
  | fallback (kind : CheckKind) (reasons : List Reason)
  | judging (kind : CheckKind) (reasons : List Reason)
  | reopening (kind : CheckKind)
  | publishing (kind : CheckKind) (reasons : List Reason)
  | published (kind : CheckKind)
  | finishing (kind : CheckKind)
  /-- `_close` of a tick with an invalid clock. -/
  | tickClosing
  | tickClosed
  deriving DecidableEq, Repr

namespace Pc

def holdsGate : Pc → Bool
  | epochReading | admitChecking _ | inside _ | closing _ | closed _ | deciding _ _ | marking _ _
  | fallback _ _ | judging _ _ | reopening _ | publishing _ _ | published _ | tickClosing
  | tickClosed => true
  | _ => false

def holdsCheck : Pc → Bool
  | checkStarting _ | closeWaiting _ | closing _ | closed _ | enumerating _ | evaluated _ _
  | deciding _ _ | marking _ _ | fallback _ _ | judging _ _ | reopening _ | publishing _ _
  | published _ | finishing _ => true
  | _ => false

/-- The check has closed access and has not published its verdict. -/
def shut : Pc → Bool
  | closed _ | enumerating _ | evaluated _ _ | deciding _ _ | marking _ _ | fallback _ _ | judging _ _
  | reopening _ | publishing _ _ => true
  | _ => false

def checks : Pc → Bool
  | checkWaiting _ | tickClosing | tickClosed => true
  | pc => pc.holdsCheck

end Pc

/-- How a write of the session revoker ends. -/
inductive Outcome
  | done
  /-- It raised; the write may have been committed. -/
  | raised (committed : Bool)
  | interrupted (committed : Bool)
  deriving DecidableEq, Repr

def Outcome.committed : Outcome → Bool
  | .done => true
  | .raised committed | .interrupted committed => committed

/-- What a thread does next, with the answers of the environment. -/
inductive Move
  | callEpoch
  | callAdmit (epoch : Option Nat)
  | callCheck (kind : CheckKind)
  | callTickClose
  | next
  /-- `exposure_pending` at startup. -/
  | stored (pending : Option Bool)
  | found (reasons : List Reason)
  | wrote (outcome : Outcome)
  /-- One commit in the block of `admit`. -/
  | commit
  /-- The block, the request or the check ends, also by an exception. -/
  | leave

/-- What a step shows. -/
inductive Action
  | epochReturned (epoch : Option Nat)
  | entered (epoch : Nat)
  | refused
  | committed (epoch : Nat)
  | closed
  | revoked
  | published (isOpen : Bool)
  deriving DecidableEq, Repr

/-- `_after_evaluation` up to its first call of the session revoker. -/
def afterEvaluation (hasRevoker : Bool) (g : Gate) (kind : CheckKind) (reasons : List Reason) :
    Gate × Pc :=
  if hasRevoker then
    if reasons.any Reason.exposure then
      ({ g with revokedInCheck := false, revocationRequired := true }, .marking kind reasons)
    else if g.revocationRequired && (!g.revocationDurable || !g.exposureRecorded) then
      ({ g with revokedInCheck := false }, .marking kind reasons)
    else ({ g with revokedInCheck := false }, .judging kind reasons)
  else (g, .publishing kind (reasons ++ [.sessionRevocationUnavailable]))

/-- `_make_durable` once `record_exposure` has ended. -/
def afterMarker (g : Gate) (kind : CheckKind) (reasons : List Reason) : Outcome → Gate × Pc
  | .done =>
    ({ g with markerFailures := 0, exposureRecorded := true, revocationDurable := true },
      .judging kind reasons)
  | .raised _ =>
    if g.exposureRecorded || g.revokedWhileClosed then
      ({ g.markerFailed with revocationDurable := true }, .judging kind reasons)
    else (g.markerFailed, .fallback kind reasons)
  | .interrupted _ => (g, .idle)

/-- `_make_durable` once its revocation has ended. -/
def afterFallback (g : Gate) (kind : CheckKind) (reasons : List Reason) : Outcome → Gate × Pc
  | .done =>
    ({ g with revokedWhileClosed := true, revokedInCheck := true, revocationDurable := true },
      .judging kind reasons)
  | .raised _ => ({ g with revocationDurable := false }, .judging kind reasons)
  | .interrupted _ => (g, .idle)

/-- The rest of `_after_evaluation`, up to the revocation before reopening. -/
def judge (g : Gate) (kind : CheckKind) (reasons : List Reason) : Gate × Pc :=
  if !g.revocationDurable then (g, .publishing kind (reasons ++ [.sessionRevocationFailed]))
  else if !reasons.isEmpty || !g.revocationRequired then (g, .publishing kind reasons)
  else if g.revokedInCheck && !g.everOpened then (g.reopened, .publishing kind [])
  else (g, .reopening kind)

/-- `_after_evaluation` once the revocation before reopening has ended. -/
def afterReopening (g : Gate) (kind : CheckKind) : Outcome → Gate × Pc
  | .done => (g.reopened, .publishing kind [])
  | .raised _ => (g, .publishing kind [.sessionRevocationFailed])
  | .interrupted _ => (g, .idle)

/-- The verdict of a check is published. -/
def Gate.conclude (g : Gate) (kind : CheckKind) (reasons : List Reason) : Gate :=
  { g with everOpened := g.everOpened || reasons.isEmpty }.publish (.ofReasons reasons kind)

/-- A revocation is shown if it was committed. -/
def Outcome.shows (outcome : Outcome) : Option Action :=
  if outcome.committed then some .revoked else none

/-- The next step of a thread, apart from its locks. `here` says that the thread is in the process that
built the gate. -/
def advance (hasRevoker here : Bool) (g : Gate) : Pc → Move → Option (Option Action × Gate × Pc)
  -- requests
  | .idle, .callEpoch | .working, .callEpoch =>
    if here then some (none, g, .epochWaiting) else some (some (.epochReturned none), g, .working)
  | .epochWaiting, .next => some (none, g, .epochReading)
  | .epochReading, .next =>
    some (some (.epochReturned (if g.verdict.isOpen then some g.epoch else none)), g, .working)
  | .idle, .callAdmit epoch | .working, .callAdmit epoch =>
    if here then some (none, g, .admitWaiting epoch) else some (some .refused, g, .working)
  | .admitWaiting epoch, .next => some (none, g, .admitChecking epoch)
  | .admitChecking epoch, .next =>
    if g.verdict.isOpen && decide (epoch = some g.epoch) then
      some (some (.entered g.epoch), g, .inside g.epoch)
    else some (some .refused, g, .working)
  | .inside epoch, .commit => some (some (.committed epoch), g, .inside epoch)
  | .inside _, .leave => some (none, g, .working)
  | .working, .leave => some (none, g, .idle)
  -- checks
  | .idle, .callCheck kind => if here then some (none, g, .checkWaiting kind) else none
  | .checkWaiting kind, .next => some (none, g, .checkStarting kind)
  | .checkStarting .startup, .stored pending =>
    some (none, if hasRevoker then g.loadRevocationState pending else g, .closeWaiting .startup)
  | .checkStarting .daily, .next => some (none, g, .closeWaiting .daily)
  | .checkStarting .retry, .next => some (none, g, .closeWaiting .retry)
  | .checkStarting .configuration, .next => some (none, g, .closeWaiting .configuration)
  | .closeWaiting kind, .next => some (none, g, .closing kind)
  | .closing kind, .next => some (some .closed, g.close, .closed kind)
  | .closed kind, .next => some (none, g, .enumerating kind)
  | .enumerating kind, .found reasons => some (none, g, .evaluated kind reasons)
  | .evaluated kind reasons, .next => some (none, g, .deciding kind reasons)
  | .deciding kind reasons, .next => some (none, afterEvaluation hasRevoker g kind reasons)
  | .marking kind reasons, .wrote outcome => some (none, afterMarker g kind reasons outcome)
  | .fallback kind reasons, .wrote outcome =>
    some (outcome.shows, afterFallback g kind reasons outcome)
  | .judging kind reasons, .next => some (none, judge g kind reasons)
  | .reopening kind, .wrote outcome => some (outcome.shows, afterReopening g kind outcome)
  | .publishing kind reasons, .next =>
    some (some (.published reasons.isEmpty), g.conclude kind reasons, .published kind)
  | .published kind, .next => some (none, g, .finishing kind)
  | .finishing _, .next => some (none, g, .idle)
  | .idle, .callTickClose => if here then some (none, g, .tickClosing) else none
  | .tickClosing, .next => some (some .closed, g.close, .tickClosed)
  | .tickClosed, .next => some (none, g, .idle)
  | pc, .leave => if pc.checks then some (none, g, .idle) else none
  | _, _ => none

/-- A thread: its process and where it stands. -/
structure Thread where
  pid : Pid
  pc : Pc := .idle

/-- The memory of the process that built the gate, the locks and the threads of all processes. -/
structure State where
  gate : Gate := {}
  gateLock : Option Tid := none
  checkLock : Option Tid := none
  threads : Tid → Thread

/-- What happens next. -/
inductive Input
  | move (thread : Tid) (move : Move)
  /-- A thread between calls of the gate forks; the new process has the one thread `child`. -/
  | fork (thread child : Tid) (pid : Pid)

/-- The lock is free for the thread, if it needs it. -/
def available (lock : Option Tid) (thread : Tid) (needed : Bool) : Bool :=
  !needed || lock.all fun holder => holder == thread

/-- The lock after a step of the thread: taken where the thread stands inside it, and left where it
stood inside it. -/
def relock (lock : Option Tid) (thread : Tid) (before after : Bool) : Option Tid :=
  if after then some thread else if before then none else lock

/-- The settings of a gate. -/
structure Setup where
  gatePid : Pid
  hasRevoker : Bool

def State.goto (s : State) (thread : Tid) (pc : Pc) : Tid → Thread :=
  Function.update s.threads thread { s.threads thread with pc := pc }

/-- One step: what it shows, and the next state. A step that is not possible changes nothing. -/
def step (u : Setup) (input : Input) (s : State) : Option Action × State :=
  match input with
  | .move t m =>
    let pc := (s.threads t).pc
    match advance u.hasRevoker (decide ((s.threads t).pid = u.gatePid)) s.gate pc m with
    | none => (none, s)
    | some (shown, g, pc') =>
      if available s.gateLock t pc'.holdsGate && available s.checkLock t pc'.holdsCheck then
        (shown, { gate := g
                  gateLock := relock s.gateLock t pc.holdsGate pc'.holdsGate
                  checkLock := relock s.checkLock t pc.holdsCheck pc'.holdsCheck
                  threads := s.goto t pc' })
      else (none, s)
  | .fork t child pid =>
    -- a process that forks goes on, and the new one has its own identity
    if (s.threads child).pc = .idle ∧ child ≠ t ∧ pid ≠ u.gatePid ∧
        ((s.threads t).pc = .idle ∨ (s.threads t).pc = .working) then
      (none, { s with threads := Function.update s.threads child ⟨pid, (s.threads t).pc⟩ })
    else (none, s)

/-- A new gate: every thread is idle, in the process that builds it. -/
def initial (u : Setup) : State where
  threads := fun _ => ⟨u.gatePid, .idle⟩

/-- A run, the latest step first. -/
abbrev History := List (Event State Input (Option Action))

/-- The step closed an open verdict. -/
def Closes (e : Event State Input (Option Action)) : Prop :=
  e.before.gate.verdict.isOpen = true ∧ e.after.gate.verdict.isOpen = false

def Input.isOf (t : Tid) : Input → Bool
  | .move thread _ => thread == t
  | .fork _ _ _ => false

end Sentinel.Reservation
