import Sentinel.Lib.History
import Sentinel.Notifications.Service

/-!
# The notification service and its delivery thread

`DeliveryWorker` of `server/app/notifications/worker.py` beside the thread that owns the `NotificationService`. The lock
`_handoff` makes each publication and each turn of `results` one step, and the owner's other operations touch what the
threads share at most once, so that they are one step as well. A `poll` is several: it flushes, drains one completion after
another while the thread may publish more, and at the end writes the outcomes and tells the callbacks.

Every callback that is passed gets a number of its own. The lists of what was sent, published, drained and called are kept
for the statements.
-/

namespace Sentinel.Notifications

open Sentinel.Presence (Fate Time)

/-- Where the delivery thread stands between two deliveries: before its check of `_stop`, in `get`, or returned. -/
inductive ThreadPoint
  | idle
  | waiting
  | exited
  deriving DecidableEq, Repr

/-- The service, its thread and what was done so far. -/
structure Handoff where
  service : Service
  /-- A `poll` that has not returned. -/
  polling : Option Polling := none
  thread : ThreadPoint := .idle
  ready : Bool := false
  numbers : Nat := 0
  attached : List Nat := []
  calls : List (Nat × Bool) := []
  sent : List EventId := []
  published : List (EventId × DeliveryResult) := []
  drained : List (EventId × DeliveryResult) := []

/-- The steps of the owner and of the thread. -/
inductive Action
  | record (event : NotificationEvent) (callback recovered : Bool) (r : Recording)
  | daily (id : EventId) (time : Time) (text : String) (callback : Bool) (r : Recording)
  | poll (p : Polling)
  | drain
  | close
  | thread (answer : Option DeliveryResult)

/-- Whether a start of the thread succeeds. -/
def Action.starts : Action → Prop
  | .record _ _ _ r | .daily _ _ _ _ r => r.starts = true
  | _ => True

/-- The event that a call of the owner records. -/
def Action.event : Action → Option EventId
  | .record event _ _ _ => some event.id
  | .daily id _ _ _ _ => some id
  | _ => none

/-- The rows are written and the callbacks return. -/
def Polling.Returns (p : Polling) : Prop := (∀ id, p.update id = .returns) ∧ ∀ id c, p.raises id c = false

/-- The callbacks of events in flight. -/
def Service.callbacks (s : Service) : List Nat := s.pending.values.flatMap InFlight.callbacks

/-- The callbacks that the end of a `poll` calls for an event, and whether they return. -/
def InFlight.called (p : Polling) (item : EventId × InFlight) : List (Nat × Bool) :=
  if item.2.result.isSome = true ∧ p.update item.1 = .returns then
    item.2.callbacks.map fun c => (c, !p.raises item.1 c)
  else []

namespace Handoff

/-- A new service. -/
def init (capacity : Nat) (configured : Bool) (rows : EventId → Option DeliveryResult) : Handoff where
  service := { capacity, configured, worker := { capacity, budget := capacity }, rows }

variable (s : Handoff)

/-- Queued, being sent, or completed but not drained. -/
def outstanding : List EventId :=
  s.service.worker.results.map Prod.fst ++ (s.service.worker.sending.toList ++ s.service.worker.work.map Prod.fst)

/-- The owner calls `record` or `daily`. -/
def submits (call : Service → Option Nat → (DeliveryResult × Bool) × Service) (callback : Bool) :
    Option (DeliveryResult × Bool) × Handoff :=
  match s.polling with
  | some _ => (none, s)
  | none =>
    let number := if callback then some s.numbers else none
    let r := call s.service number
    (some r.1, { s with
      service := r.2
      numbers := s.numbers + 1
      attached := s.attached ++ number.toList.filter r.2.callbacks.contains })

/-- One turn of `results`, and the rest of `poll` after the last one. -/
def drain : Handoff :=
  match s.polling with
  | none => s
  | some p =>
    match s.service.worker.results with
    | item :: rest =>
      let worker := { s.service.worker with results := rest, budget := s.service.worker.budget + 1 }
      { s with service := Service.takeResult { s.service with worker } item, drained := s.drained ++ [item] }
    | [] =>
      { s with
        ready := false
        polling := none
        service := s.service.pending.entries.foldl (Service.pollOne p) s.service
        calls := s.calls ++ s.service.pending.entries.flatMap (InFlight.called p) }

/-- The next step of the delivery thread, if it was started. -/
def threadStep (answer : Option DeliveryResult) : Handoff :=
  let w := s.service.worker
  if w.thread ≠ some true then s
  else
    match w.sending with
    | some _ =>
      let worker := w.publish answer
      { s with
        service := { s.service with worker }
        ready := true
        published := s.published ++ worker.results.drop w.results.length }
    | none =>
      match s.thread with
      | .idle => { s with thread := if w.stopped then .exited else .waiting }
      | .waiting =>
        let worker := w.take
        { s with service := { s.service with worker }, thread := .idle, sent := s.sent ++ worker.sending.toList }
      | .exited => s

def step (a : Action) (s : Handoff) : Option (DeliveryResult × Bool) × Handoff :=
  match a with
  | .record event callback recovered r =>
    s.submits (fun service number => service.record { event with delivery := .suppressed } number recovered r) callback
  | .daily id time text callback r => s.submits (fun service number => service.daily id time text number r) callback
  | .poll p =>
    match s.polling with
    | some _ => (none, s)
    | none =>
      (none, { s with
        polling := some p
        service := s.service.unpersisted.entries.foldl (Service.flushOne p) s.service })
  | .drain => (none, s.drain)
  | .close => (none, if s.polling.isNone then { s with service := s.service.close } else s)
  | .thread answer => (none, s.threadStep answer)

end Handoff

/-- An endless run. -/
structure Execution (capacity : Nat) (rows : EventId → Option DeliveryResult) where
  state : Nat → Handoff
  action : Nat → Action
  start : state 0 = .init capacity true rows
  next : ∀ n, state (n + 1) = (Handoff.step (action n) (state n)).2

/-- What a call of `record` or `daily` returns. -/
def Execution.output {capacity : Nat} {rows : EventId → Option DeliveryResult} (x : Execution capacity rows) (n : Nat) :
    Option (DeliveryResult × Bool) :=
  (Handoff.step (x.action n) (x.state n)).1

/-- The delivery thread runs and its transport answers, `poll` keeps being called, and the service is not closed. -/
structure Execution.Lively {capacity : Nat} {rows : EventId → Option DeliveryResult} (x : Execution capacity rows) :
    Prop where
  runs : ∀ n, ∃ m, n ≤ m ∧ ∃ answer, x.action m = .thread answer
  polls : ∀ n, ∃ m, n ≤ m ∧ ∃ p, x.action m = .poll p
  drains : ∀ n, ∃ m, n ≤ m ∧ x.action m = .drain
  stays : ∀ n, x.action n ≠ .close

end Sentinel.Notifications
