import Sentinel.Lib.Threads
import Sentinel.Uvc.Identity

/-!
# Delivery of health events

The transitions of one `ReconnectController` and the delivery of their events to `notify`
(`server/app/cameras/uvc/identity.py`), by any number of threads: the source worker, the watchdog, status reads, a
stopping thread that settles the delivery, and the hand-off threads. Every block under `_handoff_lock` reads the outbox
once and is one step. Timeouts, the checks of a call that do not read the health state, a hand-off thread that cannot
start, and an `emit` or `notify` that raises are choices of the environment. The health writes and the counters of
failures are left out. `capture_ready` ends with `_lower_for_stop` when the service is stopping; that is a call of its own.
-/

namespace Sentinel.Uvc.Delivery

/-- A transition, as it is delivered. -/
structure HealthEvent where
  state : CameraState
  reason : Reason
  deriving DecidableEq

/-- What a thread may call. -/
inductive Call
  | transition (state : CameraState) (reason : Reason)
  | captureReady
  | lowerForStop
  | frameStalled (onlyOnline blocking captureLost : Bool)
  | captureClosing
  | fenceStopping
  | resumeDelivery
  | settleDelivery
  deriving DecidableEq

namespace Call

/-- The state that the call sets under the transition lock, if any; `passes` if its other checks pass. -/
def target (c : Call) (passes : Bool) (state : CameraState) : Option HealthEvent :=
  let capturing := state == .online || state == .degraded
  match c with
  | transition state reason => some ⟨state, reason⟩
  | captureReady => if passes then some ⟨.online, .videoCaptureReady⟩ else none
  | lowerForStop | fenceStopping => if passes && capturing then some ⟨.offline, .captureServiceStopping⟩ else none
  | frameStalled onlyOnline _ captureLost =>
    if passes && (if onlyOnline then state == .online else capturing) then
      some (if captureLost then ⟨.offline, .videoCaptureFailed⟩ else ⟨.degraded, .videoFrameStalled⟩)
    else none
  | captureClosing => if capturing then some ⟨.offline, .videoCaptureClosed⟩ else none
  | resumeDelivery | settleDelivery => none

/-- The call delivers after it released the transition lock, by what it set and whether that changed the state. -/
def delivers (c : Call) (target : Option HealthEvent) (changed : Bool) : Bool :=
  match c with
  | transition _ _ | lowerForStop | captureClosing => true
  -- the other paths raise or return False
  | captureReady | frameStalled _ _ _ => target.isSome
  | fenceStopping => changed
  | resumeDelivery | settleDelivery => false

/-- The call runs `notify` in its own thread. -/
def blocking : Call → Bool
  | transition _ _ | captureReady => true
  | frameStalled _ blocking _ => blocking
  | _ => false

/-- The call gives up when the transition lock is held for too long. -/
def gives : Call → Bool
  | frameStalled _ blocking _ => !blocking
  | fenceStopping => true
  | _ => false

end Call

/-- The threads: those of the application, and the hand-off threads, in the order of their start. -/
inductive Thread
  | caller (n : Nat)
  | handoff (n : Nat)
  deriving DecidableEq

/-- The shared state of the controller. -/
structure Shared where
  state : CameraState := .offline
  reason : Reason := .notStarted
  /-- The thread that holds `lock`. -/
  lock : Option Thread := none
  /-- The thread that holds `_delivery`. -/
  delivery : Option Thread := none
  outbox : List HealthEvent := []
  emitting : Nat := 0
  running : Bool := false
  pending : Bool := false
  /-- `_handoff_idle` is set. -/
  idle : Bool := true
  /-- The number of hand-off threads that were started. -/
  started : Nat := 0

/-- How something that a thread waits for ends. -/
inductive Outcome
  | returns
  | fails
  /-- It raised a `BaseException` that is no `Exception`. -/
  | exits
  deriving DecidableEq

/-- Who runs `_drain_outbox`. -/
inductive Drainer
  | transition
  | handoff
  | settle
  deriving DecidableEq

/-- Where a thread stands. -/
inductive Pc
  | outside
  | locking (c : Call)
  /-- `_set_state`: the state is set, the event is not emitted yet. -/
  | entering (c : Call) (deliver : Bool) (e : HealthEvent)
  | emitting (c : Call) (deliver : Bool) (e : HealthEvent)
  | appending (c : Call) (deliver : Bool) (e : HealthEvent)
  | leaving (c : Call) (deliver : Bool)
  | unlocking (c : Call) (deliver : Bool)
  /-- `_handoff`. -/
  | handing (settling : Bool)
  | starting (settling : Bool)
  | startFailed (settling : Bool)
  /-- `_drain_outbox`, at the condition of its loop. -/
  | draining (d : Drainer)
  | acquiring (d : Drainer)
  | taking (d : Drainer)
  /-- The event is taken, `notify` not called yet. -/
  | calling (d : Drainer) (e : HealthEvent)
  | notifying (d : Drainer) (e : HealthEvent)
  | releasing (d : Drainer) (how : Outcome)
  /-- `_mark_idle_if_drained`. -/
  | marking (d : Drainer) (how : Outcome)
  /-- `_drain_handoff`, at the condition of its inner loop. -/
  | looping
  | finishing
  /-- `resume_delivery`. -/
  | resuming
  /-- `settle_delivery`, at the condition of its loop. -/
  | checking
  | polling
  | waiting
  | concluding

/-- What is observed of a step. -/
inductive Act
  | quiet
  | transitioned (e : HealthEvent)
  | queued (e : HealthEvent)
  | calls (e : HealthEvent)
  /-- The call of `notify` ended. -/
  | completed (e : HealthEvent)
  /-- `settle_delivery` returned. -/
  | settled (idle : Bool)
  deriving DecidableEq

/-- What the environment does with the next step of a thread. -/
inductive Input
  | call (c : Call)
  | go (how : Outcome)

namespace Shared

variable (m : Shared)

def idleLocked : Bool := !m.running && m.emitting == 0 && m.outbox.isEmpty

def delivered : Bool := m.idle && m.outbox.isEmpty && m.emitting == 0

def markIdleIfDrained : Shared := { m with idle := m.idle || m.idleLocked }

/-- The block at the end of `_set_state`. -/
def leave : Shared := { m with emitting := m.emitting - 1 }.markIdleIfDrained

end Shared

/-- Where a call begins. -/
def Call.begin : Call → Pc
  | .resumeDelivery => .resuming
  | .settleDelivery => .checking
  | c => .locking c

/-- Where a thread goes on after `_handoff` returned. -/
def handed (settling started : Bool) : Pc :=
  if settling then (if started then .waiting else .draining .settle) else .outside

/-- Where a thread goes on after `_mark_idle_if_drained`. -/
def marked (d : Drainer) (how : Outcome) : Pc :=
  match d, how with
  | .transition, _ => .outside
  -- the thread ends, and `_handoff_running` stays
  | .handoff, .exits => .outside
  | .handoff, _ => .looping
  | .settle, _ => .checking

/-- One step of a thread. -/
def move : Threads.Move Thread Shared Pc Input Act := fun i t pc m =>
  match i, pc with
  | .call c, .outside =>
    match t with
    | .caller _ => (.quiet, c.begin, m)
    | .handoff _ => (.quiet, .outside, m)
  | .call _, pc => (.quiet, pc, m)
  | .go _, .outside => (.quiet, .outside, m)
  | .go how, .locking c =>
    match m.lock with
    | some _ => (.quiet, if c.gives && how != .returns then .outside else .locking c, m)
    | none =>
      let m := { m with lock := some t }
      match c.target (how == .returns) m.state with
      | none => (.quiet, .unlocking c (c.delivers none false), m)
      | some e =>
        if (⟨m.state, m.reason⟩ : HealthEvent) = e then
          (.quiet, .unlocking c (c.delivers (some e) false), m)
        else
          (.transitioned e, .entering c (c.delivers (some e) true) e, { m with state := e.state, reason := e.reason })
  | .go _, .entering c deliver e =>
    (.quiet, .emitting c deliver e, { m with emitting := m.emitting + 1, idle := false })
  | .go how, .emitting c deliver e =>
    -- what `emit` raises leaves the call
    (.quiet, if how = .returns then .appending c deliver e else .leaving c false, m)
  | .go _, .appending c deliver e => (.queued e, .leaving c deliver, { m with outbox := m.outbox ++ [e] })
  | .go _, .leaving c deliver => (.quiet, .unlocking c deliver, m.leave)
  | .go _, .unlocking c deliver =>
    (.quiet, if deliver then (if c.blocking then .draining .transition else .handing false) else .outside,
      { m with lock := none })
  | .go _, .handing settling =>
    if m.running then (.quiet, handed settling true, { m with pending := true })
    else if m.outbox.isEmpty then
      (.quiet, handed settling true, { m with idle := m.idle || m.emitting == 0 })
    else (.quiet, .starting settling, { m with running := true, pending := false, idle := false })
  | .go how, .starting settling =>
    if how = .returns then (.quiet, handed settling true, { m with started := m.started + 1 })
    else (.quiet, .startFailed settling, m)
  | .go _, .startFailed settling => (.quiet, handed settling false, { m with running := false })
  | .go _, .draining d => (.quiet, if m.outbox.isEmpty then .marking d .returns else .acquiring d, m)
  | .go how, .acquiring d =>
    match m.delivery with
    | some _ => (.quiet, if d = .settle ∧ how ≠ .returns then .marking d .returns else .acquiring d, m)
    | none => (.quiet, .taking d, { m with delivery := some t })
  | .go _, .taking d =>
    match m.outbox with
    | [] => (.quiet, .releasing d .returns, m)
    | e :: rest => (.quiet, .calling d e, { m with outbox := rest })
  | .go _, .calling d e => (.calls e, .notifying d e, m)
  | .go how, .notifying d e => (.completed e, if how = .returns then .taking d else .releasing d how, m)
  | .go _, .releasing d how =>
    (.quiet,
      match d, how with
      | d, .returns => .draining d
      | .settle, .exits => .outside
      | d, how => .marking d how,
      { m with delivery := none })
  | .go _, .marking d how => (.quiet, marked d how, m.markIdleIfDrained)
  | .go _, .looping =>
    match t with
    | .caller _ => (.quiet, .looping, m)
    | .handoff n =>
      if n < m.started then (.quiet, if m.outbox.isEmpty then .finishing else .draining .handoff, m)
      else (.quiet, .looping, m)
  | .go _, .finishing =>
    if !m.pending && m.outbox.isEmpty then
      (.quiet, .outside, { m with running := false, idle := m.idle || m.emitting == 0 })
    else (.quiet, .looping, { m with pending := false })
  | .go _, .resuming => (.quiet, if m.running || m.outbox.isEmpty then .outside else .handing false, m)
  | .go how, .checking => (.quiet, if m.delivered || how != .returns then .concluding else .polling, m)
  | .go _, .polling => (.quiet, if m.running then .waiting else .handing true, m)
  | .go _, .waiting => (.quiet, .checking, m)
  | .go _, .concluding => (.settled m.delivered, .outside, m)

/-- The controller and its threads. -/
abbrev State := Threads Thread Shared Pc

/-- A new controller. -/
def State.init : State where
  shared := {}
  pc
    | .caller _ => .outside
    | .handoff _ => .looping

/-- A step of one of the threads. -/
abbrev step := Threads.step move

/-- A step of a run. -/
abbrev DeliveryEvent := Event State (Thread × Input) Act

/-- The event that the thread took from the outbox and did not pass to `notify` yet. -/
def Pc.taken : Pc → Option HealthEvent
  | calling _ e => some e
  | _ => none

/-- The event that the thread took from the outbox and whose call of `notify` has not ended. -/
def Pc.inFlight : Pc → Option HealthEvent
  | calling _ e | notifying _ e => some e
  | _ => none

/-- The event that was taken from the outbox and not passed to `notify` yet. -/
def State.taken (s : State) : Option HealthEvent := s.shared.delivery.bind fun t => (s.pc t).taken

/-- A thread is between taking an event from the outbox and the end of the call of `notify`. -/
def State.inFlight (s : State) : Option HealthEvent := s.shared.delivery.bind fun t => (s.pc t).inFlight

/-- The step set `_handoff_idle`. -/
def idles (e : DeliveryEvent) : Bool := !e.before.shared.idle && e.after.shared.idle

/-! ## What a run did, in the order in which it was done -/

def transitions (out : List Act) : List HealthEvent :=
  out.reverse.filterMap fun | .transitioned e => some e | _ => none

/-- The events appended to the outbox. -/
def queued (out : List Act) : List HealthEvent := out.reverse.filterMap fun | .queued e => some e | _ => none

/-- The events that `notify` was called with. -/
def called (out : List Act) : List HealthEvent := out.reverse.filterMap fun | .calls e => some e | _ => none

/-- The events whose call of `notify` ended. -/
def completed (out : List Act) : List HealthEvent :=
  out.reverse.filterMap fun | .completed e => some e | _ => none

end Sentinel.Uvc.Delivery
