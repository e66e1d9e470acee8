import Sentinel.Detection.Contracts
import Sentinel.Lib.History

/-!
# The inference scheduler

`InferenceScheduler` of `server/app/detection/foundation/scheduler.py`. Every block under its lock is one step. A
`run_one` that evaluates a frame has a first and a last block, and calls the detector between them without the lock; any number
of threads may be there. The clock and the detectors are the environment: a reading is none where the clock raises or returns no
nonnegative integer. Kind, implementation and version of a detector are left out.
-/

namespace Sentinel.Detection.Scheduler

/-- `_RETIRED_STREAM_HISTORY`. -/
def retiredStreamHistory : Nat := 4

/-- `Health`. -/
inductive Health
  | healthy
  | degraded
  | unavailable
  deriving DecidableEq, Repr

/-- `SourcePolicy`. -/
structure SourcePolicy where
  cadenceNs : Nat
  maximumCadenceNs : Nat
  maximumQueueAgeNs : Nat
  maximumEvaluationNs : Nat
  maximumObservationAgeNs : Nat
  maximumPixels : Nat
  positive : 0 < cadenceNs ∧ 0 < maximumCadenceNs ∧ 0 < maximumQueueAgeNs ∧ 0 < maximumEvaluationNs ∧
    0 < maximumObservationAgeNs ∧ 0 < maximumPixels
  allowed : cadenceNs ≤ maximumCadenceNs

/-- `_Pending`. -/
structure Pending where
  frame : GrayFrame
  quality : Quality
  receivedNs : Nat
  deriving DecidableEq

/-- `_Source`. -/
structure Source where
  detector : Nat
  policy : SourcePolicy
  cadenceNs : Nat
  pending : Option Pending := none
  streamId : Option Nat := none
  retiredStreamIds : List Nat := []
  sequence : Int := -1
  resultSequence : Option Nat := none
  result : DetectionResult := .unknown .notStarted
  nextDue : Nat := 0
  nextAdmission : Nat := 0
  resultNs : Option Nat := none
  evaluatedNs : Option Nat := none
  sampledOut : Nat := 0
  lossUnacknowledged : Bool := false
  dropped : Nat := 0
  processed : Nat := 0
  epoch : Nat := 0
  resetRequired : Bool := true
  evaluating : Bool := false

/-- `SourceSnapshot`. -/
structure SourceSnapshot where
  sourceId : Nat
  health : Health
  result : DetectionResult
  sequence : Option Nat
  streamId : Option Nat
  receivedAtNs : Option Nat
  evaluatedAtNs : Option Nat
  cadenceNs : Nat
  pending : Bool
  dropped : Nat
  processed : Nat
  sampledOut : Nat

namespace Source

variable (x : Source)

/-- `_unknown`. -/
def unknown (reason : Reason) (h : reason ≠ .evaluated := by decide) : Source :=
  { x with
    result := .unknown reason h
    resultSequence := none
    resultNs := none
    evaluatedNs := none
    resetRequired := true
    epoch := x.epoch + 1 }

/-- `_overload`. -/
def overload (reason : Reason) (now : Nat) (h : reason ≠ .evaluated := by decide) : Source :=
  let cadence := min (x.cadenceNs * 2) x.policy.maximumCadenceNs
  { x.unknown reason h with
    lossUnacknowledged := true
    cadenceNs := cadence
    nextAdmission := max x.nextAdmission (now + cadence) }

/-- What a regression of the clock does to a source. -/
def regress (now : Nat) : Source :=
  { x with pending := none, nextDue := now, nextAdmission := now }.unknown .clock

/-- A frame that is dropped. -/
def drop : Source := { x with dropped := x.dropped + 1, lossUnacknowledged := true }

/-- A new stream of the source. -/
def restart (streamId now : Nat) : Source :=
  let retired := x.retiredStreamIds ++ x.streamId.toList
  { x with
    pending := none
    retiredStreamIds := retired.drop (retired.length - retiredStreamHistory)
    streamId := some streamId
    sequence := -1
    nextAdmission := now }.unknown .discontinuity

/-- `offer`, for a frame of the current stream. -/
def offerCurrent (frame : GrayFrame) (quality : Quality) (now : Nat) : Bool × Source :=
  if (frame.sequence : Int) ≤ x.sequence then (false, x.drop)
  else
    let x := { x with sequence := frame.sequence }
    if x.policy.maximumPixels < frame.width * frame.height then
      (false, { x with pending := none, dropped := x.dropped + 1 }.overload .resourceLimit now)
    else if quality ≠ .sufficient then (false, { x with pending := none }.unknown .quality)
    else if now < x.nextAdmission then (false, { x with sampledOut := x.sampledOut + 1 })
    else
      let x := { x with nextAdmission := now + x.cadenceNs }
      let x := if x.pending.isSome then { x with dropped := x.dropped + 1 }.overload .dropped now else x
      (true, { x with pending := some ⟨frame, quality, now⟩ })

/-- `offer`, for the source of the frame. -/
def offer (frame : GrayFrame) (quality : Quality) (now : Nat) : Bool × Source :=
  if x.streamId = some frame.streamId then x.offerCurrent frame quality now
  else if frame.streamId ∈ x.retiredStreamIds then (false, x.drop)
  else (x.restart frame.streamId now).offerCurrent frame quality now

/-- `_snapshot`. -/
def snapshot (sourceId : Nat) : SourceSnapshot where
  sourceId := sourceId
  health :=
    if x.result.observation = .unknown then .unavailable
    else if x.lossUnacknowledged || decide (x.policy.cadenceNs < x.cadenceNs) then .degraded else .healthy
  result := x.result
  sequence := x.resultSequence
  streamId := x.streamId
  receivedAtNs := x.resultNs
  evaluatedAtNs := x.evaluatedNs
  cadenceNs := x.cadenceNs
  pending := x.pending.isSome
  dropped := x.dropped
  processed := x.processed
  sampledOut := x.sampledOut

/-- `snapshot`: an observation that became too old is not published any more. -/
def expire (now : Nat) : Source :=
  if x.resultNs.any fun received => decide (received + x.policy.maximumObservationAgeNs < now) then
    { x with
      result := .unknown .stale
      resultSequence := none
      resultNs := none
      evaluatedNs := none
      resetRequired := x.resetRequired || !x.evaluating }
  else x

/-- The pending frame waited too long. -/
def late (p : Pending) (now : Nat) : Bool :=
  decide (p.receivedNs + min x.policy.maximumQueueAgeNs x.policy.maximumObservationAgeNs < now)

/-- The result of an evaluation is published. -/
def publish (p : Pending) (result : DetectionResult) (finished : Nat) : Source :=
  { x with
    result := result
    resultSequence := some p.frame.sequence
    resultNs := some p.receivedNs
    evaluatedNs := some finished
    resetRequired := if result.observation = .unknown then decide (result.reason ≠ .warmup) else x.resetRequired }

end Source

/-- A `run_one` between its blocks. -/
structure Run where
  sourceId : Nat
  /-- The `_Source` object. -/
  object : Nat
  pending : Pending
  now : Nat
  epoch : Nat
  deriving DecidableEq

/-- The state of the scheduler. -/
structure State where
  maximumSources : Nat
  /-- `_sources`: the identifiers and objects of the sources, in order. -/
  sources : List (Nat × Nat) := []
  /-- The `_Source` objects, by the order of their creation. -/
  objects : Nat → Source := fun _ => ⟨0, ⟨1, 1, 1, 1, 1, 1, by decide, le_rfl⟩, 1, none, none, [], -1, none,
    .unknown .notStarted, 0, 0, none, none, 0, false, 0, 0, 0, true, false⟩
  created : Nat := 0
  running : Bool := false
  evaluations : List Run := []
  lastClock : Int := -1

namespace State

variable (s : State)

/-- The object of a source. -/
def find (sourceId : Nat) : Option Nat := (s.sources.find? fun e => e.1 = sourceId).map Prod.snd

/-- Change one object. -/
def set (object : Nat) (x : Source) : State := { s with objects := Function.update s.objects object x }

/-- `_sources` without a source. -/
def others (sourceId : Nat) : List (Nat × Nat) := s.sources.filter fun e => decide (e.1 ≠ sourceId)

/-- The object is in `_sources`. -/
def registered (object : Nat) : Bool := s.sources.any fun e => e.2 = object

/-- `_now`, for a valid reading. -/
def readClock (now : Nat) : State :=
  { s with
    objects :=
      if (now : Int) < s.lastClock then
        fun object => if s.registered object then (s.objects object).regress now else s.objects object
      else s.objects
    lastClock := now }

/-- The source that `run_one` selects, with its object and its pending frame. -/
def select (now : Nat) : Option (Nat × Nat × Pending) :=
  s.sources.findSome? fun e =>
    (s.objects e.2).pending.bind fun p => if (s.objects e.2).nextDue ≤ now then some (e.1, e.2, p) else none

end State

/-- How the calls of a detector end. -/
inductive Answer
  | returns (result : DetectionResult)
  /-- It raised, or it returned something else. -/
  | raises
  /-- It raised an exception that is no `Exception`. -/
  | exits

/-- What happens next. -/
inductive Input
  | register (sourceId detector : Nat) (policy : SourcePolicy)
  | offer (frame : GrayFrame) (quality : Quality) (clock : Option Nat)
  | unregister (sourceId : Nat)
  | invalidate (sourceId : Nat) (reason : Reason)
  | snapshot (sourceId : Nat) (clock : Option Nat)
  | restoreCadence (sourceId : Nat)
  | acknowledgeRecovery (sourceId : Nat)
  /-- The first block of `run_one`. -/
  | runOne (clock : Option Nat)
  /-- The last block of one of the threads that evaluate a frame. -/
  | finish (thread : Nat) (answer : Answer) (clock : Option Nat)

/-- How a step ends. -/
inductive Output
  | done
  | answered (accepted : Bool)
  | snapshot (x : SourceSnapshot)
  | raised
  /-- `run_one` goes on without the lock. -/
  | goes

/-- The first block of `run_one`, after the clock was read. -/
def runOne (now : Nat) (s : State) : Output × State :=
  if s.running then (.done, s)
  else
    match s.select now with
    | none => (.done, s)
    | some (sourceId, object, p) =>
      let x := s.objects object
      let s := { s with sources := s.others sourceId ++ [(sourceId, object)] }
      let x := { x with pending := none, nextDue := now + x.cadenceNs }
      if x.late p now then
        let x := { x with dropped := x.dropped + 1 }.overload .stale now
        (.snapshot (x.snapshot sourceId), s.set object x)
      else if p.quality ≠ .sufficient then
        let x := x.unknown .quality
        (.snapshot (x.snapshot sourceId), s.set object x)
      else
        (.goes,
          { s.set object { x with resetRequired := false, evaluating := true } with
            running := true
            evaluations := s.evaluations ++ [⟨sourceId, object, p, now, x.epoch⟩] })

/-- The source after an evaluation that no event interrupted. -/
def Source.conclude (x : Source) (r : Run) (result : DetectionResult) (finished : Nat) : Source :=
  if r.now + x.policy.maximumEvaluationNs < finished then x.overload .overBudget finished
  else if r.pending.receivedNs + x.policy.maximumObservationAgeNs < finished then x.overload .stale finished
  else x.publish r.pending result finished

/-- A thread leaves its evaluation. -/
def State.leave (s : State) (thread : Nat) (r : Run) : State :=
  { s.set r.object { s.objects r.object with evaluating := false } with
    running := false
    evaluations := s.evaluations.eraseIdx thread }

/-- The last block of `run_one`, after the detector returned or raised an `Exception`. -/
def conclude (r : Run) (result : DetectionResult) (clock : Option Nat) (s : State) : Output × State :=
  match clock with
  | none => (.raised, s)
  | some finished =>
    let s := s.readClock finished
    let x := s.objects r.object
    let x := { x with processed := x.processed + 1 }
    let x := if x.epoch = r.epoch then x.conclude r result finished else x
    (.snapshot (x.snapshot r.sourceId), s.set r.object x)

/-- One step. -/
def step (i : Input) (s : State) : Output × State :=
  match i with
  | .register sourceId detector policy =>
    if (s.find sourceId).isSome || decide (s.maximumSources ≤ s.sources.length) ||
        s.sources.any (fun e => decide ((s.objects e.2).detector = detector)) then (.raised, s)
    else
      (.done,
        { s.set s.created { detector, policy, cadenceNs := policy.cadenceNs } with
          sources := s.sources ++ [(sourceId, s.created)]
          created := s.created + 1 })
  | .offer frame quality (some now) =>
    let s := s.readClock now
    match s.find frame.sourceId with
    | none => (.raised, s)
    | some object =>
      let r := (s.objects object).offer frame quality now
      (.answered r.1, s.set object r.2)
  | .unregister sourceId =>
    match s.find sourceId with
    | none => (.raised, s)
    | some object =>
      (.done,
        { s.set object ({ s.objects object with pending := none }.unknown .notStarted) with
          sources := s.others sourceId })
  | .invalidate sourceId reason =>
    if h : reason ≠ .evaluated ∧ reason ≠ .warmup then
      match s.find sourceId with
      | none => (.done, s)
      | some object =>
        let x := { s.objects object with pending := none }.unknown reason h.1
        (.snapshot (x.snapshot sourceId), s.set object x)
    else (.raised, s)
  | .snapshot sourceId (some now) =>
    let s := s.readClock now
    match s.find sourceId with
    | none => (.raised, s)
    | some object =>
      let x := (s.objects object).expire now
      (.snapshot (x.snapshot sourceId), s.set object x)
  | .restoreCadence sourceId =>
    match s.find sourceId with
    | none => (.raised, s)
    | some object =>
      let x := s.objects object
      (.done, s.set object { x with cadenceNs := x.policy.cadenceNs })
  | .acknowledgeRecovery sourceId =>
    match s.find sourceId with
    | none => (.raised, s)
    | some object =>
      let x := s.objects object
      if x.result.observation = .unknown then (.raised, s)
      else (.done, s.set object { x with lossUnacknowledged := false })
  | .runOne (some now) => runOne now (s.readClock now)
  -- the clock is read before anything else
  | .offer _ _ none | .snapshot _ none | .runOne none => (.raised, s)
  | .finish thread answer clock =>
    match s.evaluations[thread]? with
    | none => (.done, s)
    | some r =>
      match answer with
      | .returns result => conclude r result clock (s.leave thread r)
      | .raises => conclude r (.unknown .failure) clock (s.leave thread r)
      | .exits => (.raised, s.leave thread r)

/-- A new scheduler. -/
def State.init (maximumSources : Nat) : State := { maximumSources }

/-- A step of a run. -/
abbrev SchedulerEvent := Event State Input Output

/-- The object that a step selects, if it is a call of `run_one` that selects one. -/
def selection (s : State) : Input → Option Nat
  | .runOne (some now) => if s.running then none else ((s.readClock now).select now).map fun selected => selected.2.1
  | _ => none

/-- The objects that a history selects, in order. -/
def selections (h : List SchedulerEvent) : List Nat := h.reverse.filterMap fun e => selection e.before e.input

/-- The object is registered, with a pending frame, and is due at a time. -/
structure Ready (s : State) (object now : Nat) : Prop where
  registered : s.registered object = true
  pending : (s.objects object).pending.isSome = true
  due : (s.objects object).nextDue ≤ now

/-- The object's place in the order of `_sources`, from one. -/
def State.position (s : State) (object : Nat) : Nat := (s.sources.map Prod.snd).idxOf object + 1

end Sentinel.Detection.Scheduler
