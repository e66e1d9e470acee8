import Sentinel.Lib.Table
import Sentinel.Lib.Threads

/-!
# The bounded health sink

`_HealthSinkDelivery` of `server/app/cameras/uvc/runtime.py`, by any number of calling threads and the delivery threads that
they start. Every block under `_lock` is one step. A delivery thread that cannot start, a sink that raises and a wait that times
out are choices of the environment. An event is its source and the number of its submission. `snapshot`, which only reads, is
left out.
-/

namespace Sentinel.Uvc.HealthSink

/-- An event, numbered by its submission. -/
structure HealthEvent where
  source : UUID
  number : Nat
  deriving DecidableEq, Repr

/-- The threads that call, and the delivery threads in the order of their start. -/
inductive Thread
  | caller (n : Nat)
  | delivery (n : Nat)
  deriving DecidableEq, Repr

/-- What the threads of the sink share. -/
structure Shared where
  pending : List HealthEvent := []
  /-- The thread that `_running` was set for, if it is set: a caller that starts a delivery thread, and then that thread. -/
  running : Option Thread := none
  /-- The event that `_in_flight_since` is about. -/
  inFlight : Option HealthEvent := none
  idle : Bool := true
  /-- How often `_idle` was set. -/
  idled : Nat := 0
  coalesced : Nat := 0
  failures : Nat := 0
  startFailures : Nat := 0
  submitted : Nat := 0
  started : Nat := 0
  deriving Repr

/-- The backward scan of `_coalesce` from an index on: the index it would delete, and the sources it has seen. -/
def scan (source : UUID) : Nat → List HealthEvent → Nat × List UUID
  | _, [] => (0, [source])
  | index, item :: items =>
    let (superseded, newer) := scan source (index + 1) items
    (if item.source ∈ newer then index else superseded, item.source :: newer)

/-- The index of the event that `_coalesce` deletes. -/
def superseded (pending : List HealthEvent) (source : UUID) : Nat := (scan source 0 pending).1

/-- Where a thread stands; `settling` if it called `settle`. -/
inductive Pc
  | outside
  /-- `resume`, before its block. -/
  | resuming (settling : Bool)
  | starting (settling : Bool)
  | startFailed (settling : Bool)
  /-- Waits for `_idle`, which had been set so often. -/
  | waiting (idled : Nat)
  /-- `_drain`, before its block. -/
  | looping
  | calling (e : HealthEvent)
  | sinking (e : HealthEvent)
  | failing (e : HealthEvent)
  | finishing (e : HealthEvent)
  | done
  deriving DecidableEq, Repr

/-- What is observed of a step. -/
inductive Act
  | quiet
  | submitted (e : HealthEvent) (removed : Option HealthEvent)
  | reached (e : HealthEvent)
  | delivered (e : HealthEvent)
  /-- `settle` is called. -/
  | settling
  /-- `settle` returns. -/
  | settled (idle : Bool)
  deriving DecidableEq, Repr

/-- What the environment does with the next step of a thread. -/
inductive Input
  | submit (source : UUID)
  | resume
  | settle
  /-- The thread goes on, and what it waits for works. -/
  | go
  | fail
  deriving DecidableEq, Repr

/-- Where a thread goes on after `resume`. -/
def resumed (settling : Bool) (m : Shared) : Pc := if settling then .waiting m.idled else .outside

/-- The block of `submit`. -/
def Shared.submit (maxPending : Nat) (m : Shared) (source : UUID) : Act × Shared :=
  let event : HealthEvent := ⟨source, m.submitted⟩
  if m.pending.length ≥ maxPending then
    let index := superseded m.pending source
    (.submitted event m.pending[index]?,
      { m with
        pending := m.pending.eraseIdx index ++ [event], idle := false, coalesced := m.coalesced + 1
        submitted := m.submitted + 1 })
  else
    (.submitted event none, { m with pending := m.pending ++ [event], idle := false, submitted := m.submitted + 1 })

/-- One step of a thread. -/
def move (maxPending : Nat) : Threads.Move Thread Shared Pc Input Act := fun i t pc m =>
  match pc, t, i with
  | .outside, .caller _, .submit source =>
    let (act, m) := m.submit maxPending source
    (act, .resuming false, m)
  | .outside, .caller _, .resume => (.quiet, .resuming false, m)
  | .outside, .caller _, .settle => (.settling, .resuming true, m)
  | .outside, .delivery n, _ => (.quiet, if n < m.started then .looping else .outside, m)
  | .resuming settling, _, _ =>
    if m.running.isSome ∨ m.pending = [] then (.quiet, resumed settling m, m)
    else (.quiet, .starting settling, { m with running := some t })
  | .starting settling, _, i =>
    if i = .fail then (.quiet, .startFailed settling, m)
    else (.quiet, resumed settling m, { m with running := some (.delivery m.started), started := m.started + 1 })
  | .startFailed settling, _, _ =>
    (.quiet, resumed settling m, { m with running := none, startFailures := m.startFailures + 1 })
  | .waiting idled, _, i =>
    if i = .fail then (.settled false, .outside, m)
    -- a waiter that was woken returns True, even if the flag was cleared since
    else if m.idle ∨ idled < m.idled then (.settled true, .outside, m)
    else (.quiet, .waiting idled, m)
  | .looping, _, _ =>
    match m.pending with
    | [] => (.quiet, .done, { m with running := none, idle := true, idled := m.idled + 1 })
    | event :: rest => (.quiet, .calling event, { m with pending := rest, inFlight := some event })
  | .calling event, _, _ => (.reached event, .sinking event, m)
  | .sinking event, _, i => (.quiet, if i = .fail then .failing event else .finishing event, m)
  | .failing event, _, _ => (.quiet, .finishing event, { m with failures := m.failures + 1 })
  | .finishing event, _, _ => (.delivered event, .looping, { m with inFlight := none })
  | pc, _, _ => (.quiet, pc, m)

/-- The sink and its threads. -/
abbrev State := Threads Thread Shared Pc

def State.init : State := ⟨{}, fun _ => .outside⟩

/-- A step of one of the threads. -/
abbrev step (maxPending : Nat) := Threads.step (move maxPending)

/-- A step in a run. -/
abbrev SinkEvent := Event State (Thread × Input) Act

/-! ## What a run did, the latest first -/

def submits (out : List Act) : List HealthEvent := out.filterMap fun | .submitted e _ => some e | _ => none

def removals (out : List Act) : List HealthEvent := out.filterMap fun | .submitted _ removed => removed | _ => none

def reaches (out : List Act) : List HealthEvent := out.filterMap fun | .reached e => some e | _ => none

def deliveries (out : List Act) : List HealthEvent := out.filterMap fun | .delivered e => some e | _ => none

end Sentinel.Uvc.HealthSink
