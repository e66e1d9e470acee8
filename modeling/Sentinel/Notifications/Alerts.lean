import Sentinel.Lib.History
import Sentinel.Notifications.Service

/-!
# The critical notification port and the alerts that storage keeps from it

`NotificationAdapter` and `UnrecordedCriticalAlerts` of `server/app/presence/delivery.py` in one process.
The dispatcher calls the adapter, and the alert step drains the queue of unrecorded alerts, on the thread
that owns the service; the recorder's hand-overs come from any thread, also between the steps of a drain.

`escalate` and `prune` are called with a snapshot of what was watched earlier, so each of their items may be
any identity. The counts that only the status reports are left out.
-/

namespace Sentinel.Notifications

open Sentinel.Presence (Kind Observation ActionResult Time)

def notificationResult : DeliveryResult → ActionResult
  | .sent => .delivered
  | .pending => .queued
  | .failed => .failed
  | .disabled => .disabled
  | .suppressed => .uncertain

/-- `kind_factory` of a critical kind. -/
def kindFactory : Kind → Option NotificationKind
  | .serverMovement => some .serverMovement
  | .cameraTamper => some .cameraTamper
  | _ => none

/-- How the lookup of stored outcomes answers. -/
inductive Lookup
  | answers
  | raises
  deriving DecidableEq, Repr

/-- The configuration of the process. -/
structure Setup where
  /-- `queue_capacity` of the service. -/
  queueCapacity : Nat
  slack : Bool
  /-- `armed` of the adapter. -/
  armed : Bool
  /-- The adapter has an `outcomes` lookup. -/
  outcomes : Bool
  capacity : Nat
  watched : Nat
  remembered : Nat
  deriving DecidableEq, Repr

/-- The service of a process, over the rows that earlier ones left. -/
def Setup.newService (u : Setup) (rows : EventId → Option DeliveryResult) : Service where
  capacity := u.queueCapacity
  configured := u.slack
  worker := { capacity := u.queueCapacity, budget := u.queueCapacity }
  rows := rows

/-! ## The adapter -/

/-- `stored`; none where the lookup raises. -/
def stored (u : Setup) (s : Service) (id : UUID) (lookup : Lookup) : Option (Option DeliveryResult) :=
  if !u.outcomes then some none
  else
    match lookup with
    | .raises => none
    | .answers => some (s.rows (.critical id))

/-- `__call__` of the adapter for a confirmed critical observation: what it answers, and whether
`DeliveryWorker.submit` was called. -/
def deliver (u : Setup) (s : Service) (o : Observation) (kind : NotificationKind) (claim : Nat)
    (requeued : Bool) (lookup : Lookup) (r : Recording) : (ActionResult × Bool) × Service :=
  let id := EventId.critical o.identifier
  let submit (s : Service) : (ActionResult × Bool) × Service :=
    if !s.canAccept id then ((.unavailable, false), s)
    else
      let ((result, submitted), s) := s.record ⟨kind, o.receivedAt, true, id, .suppressed⟩ (some claim) false r
      let outcome := notificationResult result
      ((if outcome = .failed ∧ s.retained id = true then .unavailable else outcome, submitted), s)
  let (joined, s) := s.join id kind claim
  if joined then ((.queued, false), s)
  else if requeued then submit s
  else
    match stored u s o.identifier lookup with
    | none => ((.unavailable, false), s)
    | some none => submit s
    | some (some result) =>
      let outcome := notificationResult result
      ((if outcome = .queued then .uncertain else outcome, false), s)

/-! ## Unrecorded alerts -/

/-- `UnrecordedCriticalAlerts`. -/
structure Alerts where
  queued : Dict UUID NotificationKind := .empty
  recorded : Dict UUID NotificationKind := .empty
  attempted : Dict UUID Unit := .empty
  settled : Dict UUID Unit := .empty
  /-- Its attempts whose outcome is not persisted. -/
  inFlight : List UUID := []

/-- Delete the oldest items until at most `n` are left. -/
def keepNewest {ν : Type} (n : Nat) (d : Dict UUID ν) : Dict UUID ν :=
  ⟨d.entries.drop (d.size - n), d.nodup.sublist ((List.drop_sublist ..).map _)⟩

/-- Assign to the key and move it to the end. -/
def setNewest {ν : Type} (d : Dict UUID ν) (id : UUID) (v : ν) : Dict UUID ν := (d.erase id).set id v

namespace Alerts

def refuse (u : Setup) (a : Alerts) (id : UUID) (kind : NotificationKind) (watched : Bool) : Alerts :=
  if !u.armed then a
  else if (a.queued.get? id).isSome = true ∨ (a.attempted.get? id).isSome = true then a
  else if watched = true ∧ a.recorded.get? id = none then a
  else if watched = false ∧ (a.settled.get? id).isSome = true then a
  else if a.queued.size < u.capacity then { a with queued := a.queued.set id kind }
  else a

/-- `recorded`. -/
def record (u : Setup) (a : Alerts) (id : UUID) (kind : NotificationKind) (awaiting : Bool) : Alerts :=
  let queued := a.queued.erase id
  if awaiting && u.armed then
    { a with queued := queued, recorded := keepNewest u.watched (setNewest a.recorded id kind) }
  else { a with queued := queued, recorded := a.recorded.erase id }

/-- `settled`. -/
def settle (u : Setup) (a : Alerts) (id : UUID) : Alerts :=
  { a with settled := keepNewest u.remembered (setNewest a.settled id ()) }

def prune (a : Alerts) (checked keep : List UUID) : Alerts :=
  { a with recorded := a.recorded.filter fun id _ => !checked.contains id || keep.contains id }

def attempt (u : Setup) (a : Alerts) (id : UUID) : Alerts :=
  { a with queued := a.queued.erase id, attempted := keepNewest u.remembered (a.attempted.set id ()) }

end Alerts

/-- Where the alert step is. -/
inductive Drain
  | idle
  /-- What is left of the snapshot of the queue. -/
  | waiting (items : List (UUID × NotificationKind))
  /-- The item is about to be marked as attempted. -/
  | marking (id : UUID) (items : List (UUID × NotificationKind))
  deriving DecidableEq, Repr

/-- The service, once it is there, and the alerts. -/
structure Sys where
  service : Option Service := none
  alerts : Alerts := {}
  drain : Drain := .idle

/-- The service work of one turn of the loop of `drain`: whether submit was called, the service, whether
the item is in flight for the alerts, and what the drain does next. -/
def drainItem (u : Setup) (s : Service) (inFlight : List UUID) (id : UUID) (kind : NotificationKind)
    (items : List (UUID × NotificationKind)) (time : Time) (lookup : Lookup) (r : Recording) :
    Bool × Service × List UUID × Drain :=
  let event := EventId.critical id
  if s.inFlight event then (false, s, inFlight, .marking id items)
  else
    match (stored u s id lookup).getD none with
    | some _ => (false, s, inFlight, .marking id items)
    | none =>
      if max 1 (s.capacity / 2) ≤ inFlight.length ∨ s.canAccept event = false then
        (false, s, inFlight, .idle)
      else
        let ((result, submitted), s) := s.record ⟨kind, time, true, event, .suppressed⟩ none false r
        if notificationResult result = .failed ∧ s.retained event = false then (submitted, s, inFlight, .idle)
        else
          let inFlight := if s.inFlight event ∧ id ∉ inFlight then inFlight ++ [id] else inFlight
          (submitted, s, inFlight, .marking id items)

/-! ## The steps -/

/-- What the threads do. -/
inductive Act
  | create (rows : EventId → Option DeliveryResult)
  /-- The dispatcher calls the adapter for a claim. -/
  | deliver (o : Observation) (claim : Nat) (requeued : Bool) (lookup : Lookup) (r : Recording)
  | refused (id : UUID) (kind : Kind)
  | escalated (id : UUID) (kind : Kind)
  | recorded (id : UUID) (kind : Kind) (awaiting : Bool)
  | settled (id : UUID)
  | prune (checked keep : List UUID)
  | drain
  | drainItem (time : Time) (lookup : Lookup) (r : Recording)
  | drainMark
  | poll (p : Polling)
  | record (kind : NotificationKind) (time : Time) (confirmed : Bool) (id : UUID) (callback : Option Nat)
      (recovered : Bool) (r : Recording)
  | daily (id : UUID) (time : Time) (text : String) (callback : Option Nat) (r : Recording)
  | take
  | publish (answer : Option DeliveryResult)
  | close

/-- The event for which `DeliveryWorker.submit` was called. -/
abbrev Output := Option EventId

/-- The output of a call. -/
def submission (id : EventId) (submitted : Bool) : Output := if submitted then some id else none

/-- A step of the thread that owns the service, while no drain is under way. -/
def ownerStep (u : Setup) (act : Act) (s : Sys) (service : Service) : Output × Sys :=
  match act with
  | .deliver o claim requeued lookup r =>
    match kindFactory o.kind with
    | some kind =>
      if o.confirmed then
        let ((_, submitted), service) := Notifications.deliver u service o kind claim requeued lookup r
        (submission (.critical o.identifier) submitted, { s with service := some service })
      else (none, s)
    | none => (none, s)
  | .drain =>
    if !u.armed then (none, { s with alerts := { s.alerts with queued := .empty } })
    else
      (none, { s with
        alerts := { s.alerts with
          inFlight := s.alerts.inFlight.filter fun id => service.inFlight (.critical id) }
        drain := .waiting s.alerts.queued.entries })
  | .poll p => (none, { s with service := some (service.poll p) })
  | .record kind time confirmed id callback recovered r =>
    if kind = .dailySummary ∨ recovered = true ∧ kind ≠ .cameraOffline then (none, s)
    else
      let ((_, submitted), service) :=
        service.record ⟨kind, time, confirmed, .other id, .suppressed⟩ callback recovered r
      (submission (.other id) submitted, { s with service := some service })
  | .daily id time text callback r =>
    let ((_, submitted), service) := service.daily (.other id) time text callback r
    (submission (.other id) submitted, { s with service := some service })
  | .close => (none, { s with service := some service.close })
  | _ => (none, s)

def drainStep (u : Setup) (act : Act) (s : Sys) (service : Service) : Output × Sys :=
  match act, s.drain with
  | .drainItem _ _ _, .waiting [] => (none, { s with drain := .idle })
  | .drainItem time lookup r, .waiting ((id, kind) :: items) =>
    let (submitted, service, inFlight, drain) :=
      Notifications.drainItem u service s.alerts.inFlight id kind items time lookup r
    (submission (.critical id) submitted,
      { service := some service, alerts := { s.alerts with inFlight := inFlight }, drain := drain })
  | .drainMark, .marking id items =>
    (none, { s with alerts := s.alerts.attempt u id, drain := .waiting items })
  | _, _ => (none, s)

def step (u : Setup) (act : Act) (s : Sys) : Output × Sys :=
  match act with
  | .create rows =>
    if s.service.isNone then (none, { s with service := some (u.newService rows) }) else (none, s)
  | .refused id kind =>
    match kindFactory kind with
    | some kind => (none, { s with alerts := s.alerts.refuse u id kind false })
    | none => (none, s)
  | .escalated id kind =>
    match kindFactory kind with
    | some kind => (none, { s with alerts := s.alerts.refuse u id kind true })
    | none => (none, s)
  | .recorded id kind awaiting =>
    match kindFactory kind with
    | some kind => (none, { s with alerts := s.alerts.record u id kind awaiting })
    | none => (none, s)
  | .settled id => (none, { s with alerts := s.alerts.settle u id })
  | .prune checked keep => (none, { s with alerts := s.alerts.prune checked keep })
  | .take => (none, { s with service := s.service.map fun n => { n with worker := n.worker.take } })
  | .publish answer =>
    (none, { s with service := s.service.map fun n => { n with worker := n.worker.publish answer } })
  | act =>
    match s.service with
    | none => (none, s)
    | some service => if s.drain = .idle then ownerStep u act s service else drainStep u act s service

/-- A step of a run. -/
abbrev Step := Event Sys Act Output

/-- `DeliveryWorker.submit` is called for the critical event. -/
def submits (id : UUID) (e : Step) : Bool := e.output == some (.critical id)

/-- The stored outcome of the event is looked up, and the lookup raises. -/
def lookupRaises (id : UUID) (e : Step) : Bool :=
  match e.input, e.before.drain with
  | .deliver o _ _ .raises _, _ => o.identifier == id
  | .drainItem _ .raises _, .waiting ((id', _) :: _) => id' == id
  | _, _ => false

def rowWritten (id : UUID) (s : Sys) : Bool := s.service.any fun n => (n.rows (.critical id)).isSome

/-- The dispatcher delivers a claim of the event that the Owner requeued. -/
def deliversRequeued (id : UUID) (e : Step) : Bool :=
  match e.input with
  | .deliver o _ true _ _ => o.identifier == id
  | _ => false

end Sentinel.Notifications
