import Sentinel.Lib.Dict
import Sentinel.Presence.Observations

/-!
# The notification service

`NotificationService` of `server/app/notifications/service.py` with its `DeliveryWorker` and the rows its
local sink writes. All operations of the service run on the thread that owns it; the worker's thread takes
submitted work and publishes results, which `poll` picks up. What the environment decides is a parameter:
whether a write of the sink returns, is refused, or stores the row and raises, whether the worker's thread
starts, and which completion callbacks raise.

The flags that only the status reports are left out, and so are the columns of a row that no operation
here reads.
-/

namespace Sentinel.Notifications

open Sentinel.Presence (Fate Time)

/-- The outcome of a delivery. -/
inductive DeliveryResult
  | disabled
  | sent
  | failed
  | suppressed
  | pending
  deriving DecidableEq, Repr

/-- What a notification is about. -/
inductive NotificationKind
  | serverMovement
  | cameraTamper
  | hardwareIntegrityFailure
  | recordingHealthFailure
  | humanAccessFault
  | humanAccessRecovered
  | credentialFinding
  | recordingDeviceNumbersChanged
  | hardwareIntegrityWarning
  | recordingHealthWarning
  | captureCredentialWarning
  | captureTrustWarning
  | person
  | motion
  | entry
  | cameraOffline
  | sceneReferenceReacquired
  | sceneCalibrationRequired
  | dailySummary
  deriving DecidableEq, Repr

namespace NotificationKind

def value : NotificationKind → String
  | serverMovement => "server_movement"
  | cameraTamper => "camera_tamper"
  | hardwareIntegrityFailure => "hardware_integrity_failure"
  | recordingHealthFailure => "recording_health_failure"
  | humanAccessFault => "human_access_fault"
  | humanAccessRecovered => "human_access_recovered"
  | credentialFinding => "credential_finding"
  | recordingDeviceNumbersChanged => "recording_device_numbers_changed"
  | hardwareIntegrityWarning => "hardware_integrity_warning"
  | recordingHealthWarning => "recording_health_warning"
  | captureCredentialWarning => "capture_credential_warning"
  | captureTrustWarning => "capture_trust_warning"
  | person => "person"
  | motion => "motion"
  | entry => "entry"
  | cameraOffline => "camera_offline"
  | sceneReferenceReacquired => "scene_reference_reacquired"
  | sceneCalibrationRequired => "scene_calibration_required"
  | dailySummary => "daily_summary"

/-- `IMMEDIATE_KINDS`. -/
def immediate : NotificationKind → Bool
  | hardwareIntegrityFailure | recordingHealthFailure | humanAccessFault | humanAccessRecovered
  | credentialFinding | recordingDeviceNumbersChanged | sceneReferenceReacquired
  | sceneCalibrationRequired => true
  | _ => false

/-- `CONFIRMED_IMMEDIATE_KINDS`. -/
def confirmedImmediate : NotificationKind → Bool
  | serverMovement | cameraTamper | cameraOffline => true
  | _ => false

/-- The fixed text: the words for `RECOVERY_KINDS`, `ATTENTION_KINDS` and the others, and the suffix of a
condition that already ended. -/
def text (kind : NotificationKind) (recovered : Bool) : String :=
  (match kind with
    | humanAccessRecovered => "ServerSentinel recovery notice"
    | recordingDeviceNumbersChanged => "ServerSentinel attention notice"
    | _ => "ServerSentinel critical alert") ++ ": " ++ kind.value ++
    if recovered then " (already recovered)" else ""

end NotificationKind

/-- An event identity: that of a critical observation, or one that another component makes. -/
inductive EventId
  | critical (id : UUID)
  | other (id : UUID)
  deriving DecidableEq, Repr

/-- A notification and its outcome. -/
structure NotificationEvent where
  kind : NotificationKind
  time : Time
  confirmed : Bool
  id : EventId
  delivery : DeliveryResult := .suppressed
  deriving DecidableEq, Repr

/-- The two events say the same. -/
def NotificationEvent.agrees (a b : NotificationEvent) : Prop :=
  a.kind = b.kind ∧ a.time = b.time ∧ a.confirmed = b.confirmed

instance (a b : NotificationEvent) : Decidable (a.agrees b) := inferInstanceAs (Decidable (_ ∧ _))

/-! ## The delivery worker -/

/-- The queues of the delivery thread. -/
structure DeliveryWorker where
  capacity : Nat
  work : List (EventId × String) := []
  sending : Option EventId := none
  results : List (EventId × DeliveryResult) := []
  budget : Nat
  stopped : Bool := false
  thread : Option Bool := none
  deriving DecidableEq, Repr

namespace DeliveryWorker

/-- `submit`, and whether it returned. The work is queued before the thread is started. -/
def submit (w : DeliveryWorker) (id : EventId) (text : String) (starts : Bool) : Bool × DeliveryWorker :=
  if w.stopped = true ∨ w.budget = 0 ∨ w.capacity ≤ w.work.length then (false, w)
  else
    let w' := { w with work := w.work ++ [(id, text)], budget := w.budget - 1 }
    match w.thread with
    | some _ => (true, w')
    | none => (starts, { w' with thread := some starts })

/-- The thread takes the next work. -/
def take (w : DeliveryWorker) : DeliveryWorker :=
  match w.thread, w.sending, w.work with
  | some true, none, (id, _) :: rest => { w with work := rest, sending := some id }
  | _, _, _ => w

/-- The thread publishes what the transport answered. -/
def publish (w : DeliveryWorker) (answer : Option DeliveryResult) : DeliveryWorker :=
  match w.sending with
  | none => w
  | some id =>
    let result := match answer with
      | some .sent => .sent
      | some .disabled => .disabled
      | _ => .failed
    { w with sending := none, results := w.results ++ [(id, result)] }

/-- `results`, consumed to its end. -/
def drained (w : DeliveryWorker) : DeliveryWorker :=
  { w with results := [], budget := w.budget + w.results.length }

end DeliveryWorker

/-! ## The service -/

/-- An event in flight, with the callbacks to tell. -/
structure InFlight where
  event : NotificationEvent
  callbacks : List Nat
  result : Option DeliveryResult := none
  deriving DecidableEq, Repr

/-- `NotificationService`, with the rows of its local sink. -/
structure Service where
  capacity : Nat
  configured : Bool
  worker : DeliveryWorker
  pending : Dict EventId InFlight := .empty
  unpersisted : Dict EventId NotificationEvent := .empty
  closed : Bool := false
  rows : EventId → Option DeliveryResult

/-- What happens during a `poll`: how the writes end, and which callbacks raise. -/
structure Polling where
  flush : EventId → Fate := fun _ => .returns
  update : EventId → Fate := fun _ => .returns
  raises : EventId → Nat → Bool := fun _ _ => false

/-- What happens during a `record`. -/
structure Recording where
  write : Fate := .returns
  starts : Bool := true
  polling : Polling := {}

namespace Service

/-- `_local`. -/
def localSink (s : Service) (fate : Fate) (event : NotificationEvent) : Bool × Service :=
  let stored := { s with rows := Function.update s.rows event.id (some event.delivery) }
  match fate with
  | .returns => (true, stored)
  | .refused => (false, s)
  | .raises => (false, stored)

def retain (s : Service) (event : NotificationEvent) : Bool × Service :=
  if (s.unpersisted.get? event.id).isSome = true ∨ s.unpersisted.size < s.capacity then
    (true, { s with unpersisted := s.unpersisted.set event.id event })
  else (false, s)

def inFlight (s : Service) (id : EventId) : Bool := (s.pending.get? id).isSome

def retained (s : Service) (id : EventId) : Bool := (s.unpersisted.get? id).isSome

def join (s : Service) (id : EventId) (kind : NotificationKind) (callback : Nat) : Bool × Service :=
  match s.pending.get? id with
  | none => (false, s)
  | some entry =>
    if entry.event.kind ≠ kind ∨ entry.event.confirmed = false then (false, s)
    else
      (true, { s with pending := s.pending.set id { entry with callbacks := entry.callbacks ++ [callback] } })

def canAccept (s : Service) (id : EventId) : Bool :=
  if s.inFlight id || s.retained id then true
  else if !s.configured then decide (s.unpersisted.size < s.capacity)
  else !s.closed && decide (s.pending.size < s.capacity)

/-- One turn of `_flush_unpersisted`. -/
def flushOne (p : Polling) (s : Service) (item : EventId × NotificationEvent) : Service :=
  let r := s.localSink (p.flush item.1) item.2
  if r.1 then { r.2 with unpersisted := r.2.unpersisted.erase item.1 } else r.2

/-- A published result reaches its event. -/
def takeResult (s : Service) (item : EventId × DeliveryResult) : Service :=
  { s with pending := s.pending.modify item.1 fun entry => { entry with result := some item.2 } }

/-- One turn of the loop of `poll`. -/
def pollOne (p : Polling) (s : Service) (item : EventId × InFlight) : Service :=
  match item.2.result with
  | none => s
  | some result =>
    let r := s.localSink (p.update item.1) { item.2.event with delivery := result }
    if !r.1 then r.2
    else
      let failed := item.2.callbacks.filter (p.raises item.1)
      if failed ≠ [] then
        { r.2 with pending := r.2.pending.set item.1 { item.2 with callbacks := failed } }
      else { r.2 with pending := r.2.pending.erase item.1 }

def poll (p : Polling) (s : Service) : Service :=
  let s := s.unpersisted.entries.foldl (flushOne p) s
  let s := s.worker.results.foldl takeResult { s with worker := s.worker.drained }
  s.pending.entries.foldl (pollOne p) s

/-- `_enqueue`: its result, and whether it called `DeliveryWorker.submit`. -/
def enqueue (s : Service) (event : NotificationEvent) (text : String) (callback : Option Nat) (retains : Bool)
    (r : Recording) : (DeliveryResult × Bool) × Service :=
  match s.pending.get? event.id with
  | some entry =>
    if event.agrees entry.event then
      ((.pending, false), { s with
        pending := s.pending.set event.id { entry with callbacks := entry.callbacks ++ callback.toList } })
    else ((.failed, false), s)
  | none =>
    let result : DeliveryResult :=
      if !s.configured then .disabled
      else if s.closed = true ∨ s.capacity ≤ s.pending.size then .failed
      else .pending
    let event := { event with delivery := result }
    let (written, s) := s.localSink r.write event
    if result ≠ .pending then
      if written then ((result, false), s)
      else ((.failed, false), if retains then (s.retain event).2 else s)
    else
      let s := { s with pending := s.pending.set event.id ⟨event, callback.toList, none⟩ }
      let (submitted, worker) := s.worker.submit event.id text r.starts
      let s := { s with worker := worker }
      if submitted then ((.pending, true), s)
      else
        let s := { s with pending := s.pending.modify event.id fun e => { e with result := some .failed } }
        ((.failed, true), s.poll r.polling)

/-- `record`: its result, and whether it called `DeliveryWorker.submit`. -/
def record (s : Service) (event : NotificationEvent) (callback : Option Nat) (recovered : Bool)
    (r : Recording) : (DeliveryResult × Bool) × Service :=
  match s.unpersisted.get? event.id with
  | some prior =>
    if event.agrees prior then
      let (written, s) := s.localSink r.write prior
      if written then ((prior.delivery, false), { s with unpersisted := s.unpersisted.erase event.id })
      else ((.failed, false), s)
    else ((.failed, false), s)
  | none =>
    if event.kind.immediate || event.confirmed && event.kind.confirmedImmediate then
      s.enqueue event (event.kind.text recovered) callback true r
    else
      let (written, s) := s.localSink r.write event
      if written then ((.suppressed, false), s)
      else
        let (retained, s) := s.retain event
        ((if retained then .suppressed else .failed, false), s)

def daily (s : Service) (id : EventId) (time : Time) (text : String) (callback : Option Nat) (r : Recording) :
    (DeliveryResult × Bool) × Service :=
  s.enqueue { kind := .dailySummary, time := time, confirmed := false, id := id } text callback false r

def close (s : Service) : Service :=
  { s with closed := true, worker := { s.worker with stopped := true } }

end Service

end Sentinel.Notifications
