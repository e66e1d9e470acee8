import Sentinel.Lib.Dict
import Sentinel.Lib.Threads

/-!
# The health writer of a source

`_HealthWriter` of `server/app/cameras/uvc/registry_adapter.py`, by any number of calling threads and the hand-off threads that
they start. Every block under `_staged_lock` or `_handoff_lock` is one step; the mark of the source is set within them. A write
that raises, before or after it was committed, and a thread that cannot start are choices of the environment. The callback
`settled`, and `settle`, `busy` and `fenced`, which only read, are left out.
-/

namespace Sentinel.Uvc.HealthWriter

/-- The keyword arguments of a write. -/
abbrev Values (ν : Type) := Dict String ν

def lastSeenAt : String := "last_seen_at"

/-- The threads that call, and the hand-off threads in the order of their start. -/
inductive Thread
  | caller (n : Nat)
  | handoff (n : Nat)
  deriving DecidableEq, Repr

/-- The writer, the mark of the source and the durable row. -/
structure Writer (ν : Type) where
  staged : Option (Values ν) := none
  fence : Option (Values ν) := none
  durable : Values ν := ∅
  /-- The thread that holds `_io`. -/
  io : Option Thread := none
  flushing : Nat := 0
  handoffRunning : Bool := false
  handoffPending : Bool := false
  idle : Bool := true
  started : Nat := 0
  unpersisted : Bool := false
  row : Values ν

namespace Writer

variable {ν : Type} (w : Writer ν)

def stage (values : Values ν) : Writer ν :=
  { w with staged := some (((w.staged.getD ∅).update values).update (w.fence.getD ∅)) }

/-- `fence`. -/
def pin (values : Values ν) : Writer ν :=
  let fence := (w.fence.getD ∅).update values
  { w with fence := some fence, staged := some ((w.staged.getD ∅).update fence) }

variable [DecidableEq ν]

/-- `_material`. -/
def material (values : Values ν) : Bool :=
  values.entries.any fun item => item.1 ≠ lastSeenAt && w.durable.get? item.1 ≠ some item.2

def markMaterial (values : Values ν) : Writer ν := { w with unpersisted := w.unpersisted || w.material values }

omit [DecidableEq ν]

/-- The row takes the values. -/
def commit (values : Values ν) : Writer ν := { w with row := w.row.update values }

/-- The block after a write. -/
def settle (values : Values ν) : Writer ν :=
  { w with durable := w.durable.update values, unpersisted := w.unpersisted && w.staged.isSome }

/-- The block after a write that raised. -/
def restage (values : Values ν) : Writer ν :=
  { w with staged := some ((values.update (w.staged.getD ∅)).update (w.fence.getD ∅)), unpersisted := true }

end Writer

/-- How a thread leaves `_io`. -/
inductive Leaves
  | again
  | returning
  /-- A hand-off thread catches what is raised, unless it is `fatal`. -/
  | raising (fatal : Bool)
  deriving DecidableEq, Repr

/-- Where a thread stands. -/
inductive Pc (ν : Type)
  | outside
  /-- `_drain_handoff`, before it flushes. -/
  | looping
  /-- `_flush_blocking`, waits for `_io`. -/
  | acquiring
  | taking
  /-- `_write` runs with the values. -/
  | writing (values : Values ν)
  | settling (values : Values ν)
  | failing (values : Values ν) (fatal : Bool)
  | releasing (next : Leaves)
  | leaving (fatal : Bool)
  /-- `_drain_handoff`, after it flushed. -/
  | checking
  | done
  | handing
  | starting
  | startFailed

/-- What is observed of a step. -/
inductive Act (ν : Type)
  | quiet
  | staged (values : Values ν)
  | fenced (values : Values ν)

/-- What the environment does with the next step of a thread. -/
inductive Input (ν : Type)
  | stage (values : Values ν)
  | fence (values : Values ν)
  | flush (blocking : Bool)
  /-- The thread goes on, and what it waits for works. -/
  | go
  | fail (late fatal : Bool)

section Move

variable {ν : Type} [DecidableEq ν]

/-- The write of the values ends. -/
def write (i : Input ν) (values : Values ν) (w : Writer ν) : Pc ν × Writer ν :=
  match i with
  | .fail false fatal => (.failing values fatal, w)
  | .fail true fatal => (.failing values fatal, w.commit values)
  | _ => (.settling values, w.commit values)

/-- Where a thread goes on after a blocking flush. -/
def Thread.returns (t : Thread) (fatal : Bool) : Pc ν :=
  match t with
  | .caller _ => .outside
  | .handoff _ => if fatal then .done else .checking

/-- The next step of a thread. -/
def move : Threads.Move Thread (Writer ν) (Pc ν) (Input ν) (Act ν) := fun i t pc w =>
  match pc with
  | .outside =>
    match t, i with
    | .caller _, .stage values => (.staged values, .outside, w.stage values)
    | .caller _, .fence values => (.fenced values, .outside, w.pin values)
    | .caller _, .flush true => (.quiet, .acquiring, { w with flushing := w.flushing + 1 })
    | .caller _, .flush false =>
      match w.staged with
      | none => (.quiet, .outside, w)
      | some values => (.quiet, .handing, w.markMaterial values)
    | .handoff n, _ => (.quiet, if n < w.started then .looping else .outside, w)
    | _, _ => (.quiet, .outside, w)
  | .looping => (.quiet, .acquiring, { w with flushing := w.flushing + 1 })
  | .acquiring =>
    match w.io with
    | some _ => (.quiet, .acquiring, w)
    | none => (.quiet, .taking, { w with io := some t })
  | .taking =>
    match w.staged with
    | none => (.quiet, .releasing .returning, w)
    | some values => (.quiet, .writing values, { w with staged := none }.markMaterial values)
  | .writing values =>
    let (pc, w) := write i values w
    (.quiet, pc, w)
  | .settling values => (.quiet, .releasing (if w.staged.isSome then .again else .returning), w.settle values)
  | .failing values fatal => (.quiet, .releasing (.raising fatal), w.restage values)
  | .releasing next =>
    let pc :=
      match next with
      | .again => .acquiring
      | .returning => .leaving false
      | .raising fatal => .leaving fatal
    (.quiet, pc, { w with io := none })
  | .leaving fatal => (.quiet, t.returns fatal, { w with flushing := w.flushing - 1 })
  | .checking =>
    if w.handoffPending then (.quiet, .looping, { w with handoffPending := false })
    else (.quiet, .done, { w with handoffRunning := false, idle := true })
  | .done => (.quiet, .done, w)
  | .handing =>
    if w.handoffRunning then (.quiet, .outside, { w with handoffPending := true })
    else (.quiet, .starting, { w with handoffRunning := true, handoffPending := false, idle := false })
  | .starting =>
    match i with
    | .fail _ _ => (.quiet, .startFailed, w)
    | _ => (.quiet, .outside, { w with started := w.started + 1 })
  | .startFailed => (.quiet, .outside, { w with handoffRunning := false, idle := true })

/-- The writer and its threads. -/
abbrev State (ν : Type) := Threads Thread (Writer ν) (Pc ν)

def State.init (row : Values ν) : State ν := ⟨{ row }, fun _ => .outside⟩

/-- A step of one of the threads. -/
abbrev step : Thread × Input ν → State ν → Act ν × State ν := Threads.step move

/-- A step in a run. -/
abbrev WriterEvent (ν : Type) := Event (State ν) (Thread × Input ν) (Act ν)

end Move

/-! ## What a run staged -/

section Staged

variable {ν : Type}

/-- The values of a write that is in flight: they were taken out, and the write is not settled or put back. -/
def Pc.inFlight : Pc ν → Option (Values ν)
  | .writing values | .settling values | .failing values _ => some values
  | _ => none

/-- The left fold of the partial updates that were staged, from what was observed, the latest first. -/
def updates : List (Act ν) → Values ν
  | [] => ∅
  | .staged values :: out => (updates out).update values
  | _ :: out => updates out

/-- The left fold of the values of the fence. -/
def fences : List (Act ν) → Values ν
  | [] => ∅
  | .fenced values :: out => (fences out).update values
  | _ :: out => fences out

/-- What the row should hold: the updates, with the fence on top. -/
def expected (out : List (Act ν)) : Values ν := (updates out).update (fences out)

end Staged

end Sentinel.Uvc.HealthWriter
