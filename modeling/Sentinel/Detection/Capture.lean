import Sentinel.Lib.History
import Sentinel.Lib.Table

/-!
# The capture slot of a source

The capture side of `SceneMonitoringRuntime` of `server/app/detection/roi/runtime.py` for one source: the calls that offer a
sample or report a loss, and the worker that takes what is pending. A call is given the clock that it reads. A runtime stream is
numbered in the order in which its identity was minted. The picture that a sample carries and the time of day are left out.
-/

namespace Sentinel.Detection.Capture

/-- `RETIRED_PRODUCER_LIMIT`. -/
def retiredProducerLimit : Nat := 1024

/-- What a slot is configured with. -/
structure Binding where
  layout : Bool
  localUvc : Bool
  sampleIntervalNs : Int

/-- A sample, as the worker takes it. -/
structure Sample where
  streamId : Option Nat
  sequence : Int
  monotonicNs : Int
  /-- The producer stream; none for raw frames. -/
  producer : Option UUID
  deriving DecidableEq, Repr

/-- A loss of the source, and whether its signal is trusted. -/
structure Loss where
  monotonicNs : Int
  trusted : Bool
  deriving DecidableEq, Repr

/-- `_Slot`, with whether the runtime accepts samples and the number of runtime streams. -/
structure Slot where
  accepting : Bool := true
  sample : Option Sample := none
  loss : Option Loss := none
  streamId : Option Nat := none
  mintedFor : Option UUID := none
  newStream : Bool := true
  sequence : Int := -1
  lastAcceptedNs : Option Int := none
  lastUvcSequence : Option Int := none
  retiredProducers : Finset UUID := ∅
  historyExhausted : Bool := false
  exhaustedNs : Option Int := none
  accepted : Nat := 0
  sampledOut : Nat := 0
  replaced : Nat := 0
  staleRejected : Nat := 0
  minted : Nat := 0

/-- The health states that the slot tells apart. -/
inductive CameraState
  | online
  | offline
  | manualInterventionRequired
  | other
  deriving DecidableEq, Repr

/-- The calls of a slot. -/
inductive Call
  | onUvcFrame (now sequence : Int)
  | offerLuma (now : Int) (streamId : UUID)
  | sourceUnavailable (now : Int) (trusted : Bool)
  | onUvcHealth (now : Int) (state : CameraState)
  | cycle
  | accepting (accepting : Bool)
  deriving DecidableEq, Repr

/-- What a call did. -/
inductive Act
  | quiet
  | accepted (sample : Sample)
  | lost (loss : Loss)
  | taken (sample : Option Sample) (loss : Option Loss)
  deriving DecidableEq, Repr

namespace Slot

variable (m : Slot)

/-- The stream of the producer was replaced. -/
def retired (producer : Option UUID) : Bool := producer.any fun p => p ∈ m.retiredProducers

/-- The producer stream is not the current one. -/
def replacing (producer : Option UUID) : Bool := producer ≠ m.mintedFor

/-- The current producer stream is retired, and its pending sample discarded. -/
def retire (producer : Option UUID) : Slot :=
  match m.mintedFor with
  | none => m
  | some current =>
    if m.replacing producer then
      let m := { m with retiredProducers := insert current m.retiredProducers }
      match m.sample with
      | none => m
      | some sample =>
        if m.retired sample.producer then { m with sample := none, staleRejected := m.staleRejected + 1 } else m
    else m

/-- A new runtime stream for the producer. -/
def mint (producer : Option UUID) : Slot :=
  { m with
    streamId := some m.minted, minted := m.minted + 1, sequence := -1, mintedFor := producer, newStream := false }

/-- The transition to the stream of the producer. -/
def follow (producer : Option UUID) : Slot :=
  let m' := m.retire producer
  if m.newStream || m.replacing producer then m'.mint producer else m'

/-- The end of `_accept_locked`: the sampling decision. -/
def place (b : Binding) (now : Int) (producer : Option UUID) : Act × Slot :=
  if m.lastAcceptedNs.any fun last => now - last < b.sampleIntervalNs then
    (.quiet, { m with sampledOut := m.sampledOut + 1 })
  else
    let sample : Sample := ⟨m.streamId, m.sequence + 1, now, producer⟩
    (.accepted sample,
      { m with
        replaced := m.replaced + (if m.sample.isSome then 1 else 0)
        sequence := m.sequence + 1
        lastAcceptedNs := some now
        accepted := m.accepted + 1
        sample := some sample })

/-- `_accept_locked`. -/
def accept (b : Binding) (now : Int) (producer : Option UUID) : Act × Slot :=
  if !m.accepting then (.quiet, m)
  else if m.historyExhausted then (.quiet, { m with staleRejected := m.staleRejected + 1 })
  else if m.replacing producer && m.retired producer then (.quiet, { m with staleRejected := m.staleRejected + 1 })
  else if m.replacing producer && m.mintedFor.isSome && decide (retiredProducerLimit ≤ m.retiredProducers.card) then
    (.quiet,
      { m with
        historyExhausted := true
        exhaustedNs := some now
        sample := none
        staleRejected := m.staleRejected + 1 + (if m.sample.isSome then 1 else 0) })
  else (m.follow producer).place b now producer

/-- The driver starts its sequence again. -/
def restarts (sequence : Int) : Bool := m.lastUvcSequence.any fun last => sequence ≤ last

def onUvcFrame (b : Binding) (now sequence : Int) : Act × Slot :=
  if b.layout then
    { m with newStream := m.newStream || m.restarts sequence, lastUvcSequence := some sequence }.accept b now none
  else (.quiet, m)

def offerLuma (b : Binding) (now : Int) (streamId : UUID) : Act × Slot :=
  if b.layout then (.quiet, m) else m.accept b now (some streamId)

def sourceUnavailable (now : Int) (trusted : Bool) : Act × Slot :=
  let m := { m with newStream := true, lastUvcSequence := none }
  if !m.accepting then (.quiet, m)
  else
    let trusted := trusted && !m.exhaustedNs.any fun exhausted => exhausted ≤ now
    -- the first trusted loss since the last pass is kept
    if m.loss.all fun loss => trusted && !loss.trusted then (.lost ⟨now, trusted⟩, { m with loss := some ⟨now, trusted⟩ })
    else (.quiet, m)

def onUvcHealth (b : Binding) (now : Int) (state : CameraState) : Act × Slot :=
  if !b.localUvc then (.quiet, m)
  else
    match state with
    | .online => (.quiet, { m with newStream := true, lastUvcSequence := none })
    | .offline | .manualInterventionRequired => m.sourceUnavailable now true
    | .other => m.sourceUnavailable now false

/-- The beginning of `_cycle`. -/
def cycle : Act × Slot := (.taken m.sample m.loss, { m with sample := none, loss := none })

end Slot

def step (b : Binding) (call : Call) (m : Slot) : Act × Slot :=
  match call with
  | .onUvcFrame now sequence => m.onUvcFrame b now sequence
  | .offerLuma now streamId => m.offerLuma b now streamId
  | .sourceUnavailable now trusted => m.sourceUnavailable now trusted
  | .onUvcHealth now state => m.onUvcHealth b now state
  | .cycle => m.cycle
  | .accepting accepting => (.quiet, { m with accepting })

/-- A call in a run. -/
abbrev SlotEvent := Event Slot Call Act

/-- A loss, a camera that comes online, or a restart of the driver. -/
def Call.interrupts (b : Binding) (m : Slot) : Call → Bool
  | .onUvcFrame _ sequence => b.layout && m.restarts sequence
  | .sourceUnavailable _ _ => true
  | .onUvcHealth _ _ => b.localUvc
  | _ => false

/-- The call interrupts the stream, or changes the producer stream. -/
def interrupts (b : Binding) (e : SlotEvent) : Bool :=
  e.input.interrupts b e.before || decide (e.after.mintedFor ≠ e.before.mintedFor)

/-- The sample that the worker took. -/
def takes (e : SlotEvent) : Option Sample :=
  match e.output with
  | .taken sample _ => sample
  | _ => none

/-- The producer stream lost its place to another one in the run. -/
def Replaced (h : List SlotEvent) (producer : UUID) : Prop :=
  ∃ e ∈ h, e.before.mintedFor = some producer ∧ e.after.mintedFor ≠ some producer

end Sentinel.Detection.Capture
