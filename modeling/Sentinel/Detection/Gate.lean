import Sentinel.Detection.Contracts
import Sentinel.Lib.History

/-!
# The quality gate of a detector

`QualityGate` of `server/app/detection/quality/gate.py`, with the value types of `contracts.py` beside it. What `measure`
returns or raises for a frame is given with the call. A decision object is the number of the `assess` call that made it. The
name and the version of the policy, which every decision repeats, are left out.
-/

namespace Sentinel.Detection.Gate

/-- What the gate measures on a frame. -/
inductive Metric
  | luminance
  | sharpness
  | saturation
  | width
  | height
  | targetWidth
  | targetHeight
  | occlusion
  | confidence
  deriving DecidableEq, Repr

/-- What the detector did. -/
inductive Execution
  | ready
  | succeeded
  | skipped
  | stopped
  | failed
  | unavailable
  deriving DecidableEq, Repr

def Execution.available : Execution → Bool
  | .ready | .succeeded => true
  | _ => false

/-- `UNAVAILABLE_REASONS`, and `_reason` for an execution that is available. -/
def Execution.reason : Execution → Reason
  | .skipped | .stopped | .unavailable => .notStarted
  | .failed => .failure
  | .ready | .succeeded => .quality

/-- Why a frame is not sufficient. -/
inductive QualityReason
  | belowSufficient
  | aboveSufficient
  | belowUsable
  | aboveUsable
  | metricUnavailable
  | measurementFailed
  | contextMismatch
  | sourceMismatch
  | resourceLimit
  | executionUnavailable
  | discontinuity
  | recovering
  deriving DecidableEq, Repr

/-- The upper end of a metric's measurement domain. -/
def Metric.upper : Metric → ℚ
  | .luminance | .sharpness | .saturation | .occlusion | .confidence => 1
  | .width | .height | .targetWidth | .targetHeight => 2 ^ 31 - 1

/-- `MetricRule`, with the checks of its `__post_init__`. -/
structure MetricRule where
  metric : Metric
  minimumUsable : ℚ
  minimumSufficient : ℚ
  maximumSufficient : ℚ
  maximumUsable : ℚ
  ordered : minimumUsable ≤ minimumSufficient ∧ minimumSufficient ≤ maximumSufficient ∧ maximumSufficient ≤ maximumUsable
  domain : 0 ≤ minimumUsable ∧ maximumUsable ≤ metric.upper

/-- `DetectorQualityPolicy`, with the checks of its `__post_init__`. -/
structure QualityPolicy where
  rules : List MetricRule
  recoveryFrames : Nat
  rules_ne_nil : rules ≠ []
  distinct : (rules.map MetricRule.metric).Nodup
  recovery : 2 ≤ recoveryFrames ∧ recoveryFrames ≤ 2 ^ 31 - 1

/-- What identifies a frame. -/
structure FrameIdentity where
  sourceId : Nat
  streamId : Nat
  sequence : Nat
  deriving DecidableEq, Repr

/-- `FrameIdentity.from_frame`. -/
def FrameIdentity.fromFrame (f : GrayFrame) : FrameIdentity := ⟨f.sourceId, f.streamId, f.sequence⟩

/-- A reason and the metric it is about. -/
structure QualityFinding where
  reason : QualityReason
  metric : Option Metric := none
  deriving DecidableEq, Repr

/-- A frame that was not measured has no metrics. -/
structure QualityDecision where
  frame : FrameIdentity
  quality : Quality
  metrics : Option (Metric → Option ℚ) := none
  findings : List QualityFinding
  recoveryCount : Nat

/-- What `measure` returns, or the reason of its `MeasurementUnavailable`; any other exception has none. -/
abbrev Measurement := Except (Option QualityReason) (Metric → Option ℚ)

/-- The state of the gate. -/
structure QualityGate where
  streamId : Option Nat := none
  sequence : Int := -1
  shape : Option (Nat × Nat × Nat) := none
  good : Nat := 0
  latest : Option Nat := none
  decisions : List QualityDecision := []

namespace QualityGate

/-- The body of the loop over the rules. -/
def applyRule (values : Metric → Option ℚ) (judged : Quality × List QualityFinding) (rule : MetricRule) :
    Quality × List QualityFinding :=
  let (quality, findings) := judged
  match values rule.metric with
  | none => (.unknown, findings ++ [⟨.metricUnavailable, some rule.metric⟩])
  | some value =>
    if value < rule.minimumUsable ∨ value > rule.maximumUsable then
      (if quality = .unknown then quality else .insufficient,
        findings ++ [⟨if value < rule.minimumUsable then .belowUsable else .aboveUsable, some rule.metric⟩])
    else if value < rule.minimumSufficient ∨ value > rule.maximumSufficient then
      (if quality = .sufficient then .degraded else quality,
        findings ++ [⟨if value < rule.minimumSufficient then .belowSufficient else .aboveSufficient, some rule.metric⟩])
    else judged

/-- A decision without measurements, which ends the run of good frames. -/
def refuse (g : QualityGate) (frame : GrayFrame) (reason : QualityReason) : QualityDecision × QualityGate :=
  (⟨.fromFrame frame, .unknown, none, [⟨reason, none⟩], 0⟩, { g with good := 0 })

/-- A frame of another stream starts the sequence numbers and the run again. -/
def enter (g : QualityGate) (frame : GrayFrame) : QualityGate :=
  if g.streamId ≠ some frame.streamId then { g with streamId := some frame.streamId, sequence := -1, good := 0 } else g

/-- A gap or another shape starts the run again. -/
def place (g : QualityGate) (frame : GrayFrame) : QualityGate :=
  let g := if (frame.sequence : Int) ≠ g.sequence + 1 ∨ some frame.shape ≠ g.shape then { g with good := 0 } else g
  { g with shape := some frame.shape, sequence := frame.sequence }

/-- `_assess`; `context` is the frame that the context is attributed to. -/
def assess (sourceId : Nat) (policy : QualityPolicy) (g : QualityGate) (frame : GrayFrame) (execution : Execution)
    (context : Option FrameIdentity) (measurement : Measurement) : QualityDecision × QualityGate :=
  if frame.sourceId ≠ sourceId then g.refuse frame .sourceMismatch
  else if context.any fun c => c ≠ .fromFrame frame then g.refuse frame .contextMismatch
  else
    let g := g.enter frame
    if (frame.sequence : Int) ≤ g.sequence then g.refuse frame .discontinuity
    else
      let g := g.place frame
      if ¬execution.available then g.refuse frame .executionUnavailable
      else
        match measurement with
        | .error reason => g.refuse frame (reason.getD .measurementFailed)
        | .ok values =>
          let (quality, findings) := policy.rules.foldl (applyRule values) (.sufficient, [])
          if quality = .sufficient then
            let g := { g with good := min (g.good + 1) policy.recoveryFrames }
            if g.good < policy.recoveryFrames then
              (⟨.fromFrame frame, .degraded, some values, findings ++ [⟨.recovering, none⟩], g.good⟩, g)
            else (⟨.fromFrame frame, .sufficient, some values, findings, g.good⟩, g)
          else (⟨.fromFrame frame, quality, some values, findings, 0⟩, { g with good := 0 })

theorem quality_ne : Reason.quality ≠ .evaluated := by decide

theorem failure_ne : Reason.failure ≠ .evaluated := by decide

theorem notStarted_ne : Reason.notStarted ≠ .evaluated := by decide

theorem stale_ne : Reason.stale ≠ .evaluated := by decide

/-- `_guard_result` of the module. -/
def guarded (decision : QualityDecision) (result : Option DetectionResult) (execution : Execution) (frame : FrameIdentity) :
    DetectionResult :=
  if decision.frame ≠ frame ∨ decision.quality ≠ .sufficient then .unknown .quality quality_ne
  else if execution ≠ .succeeded then
    if execution = .failed then .unknown .failure failure_ne else .unknown .notStarted notStarted_ne
  else result.getD (.unknown .failure failure_ne)

end QualityGate

/-- The calls of the gate. -/
inductive GateCall
  | assess (frame : GrayFrame) (execution : Execution) (context : Option FrameIdentity) (measurement : Measurement)
  | invalidate (execution : Execution)
  | guardResult (decision : Option Nat) (result : Option DetectionResult) (execution : Execution) (frame : FrameIdentity)

/-- What a call returns, with the reason that it revokes the published result for. -/
inductive GateReply
  | decided (number : Nat) (decision : QualityDecision) (revoked : Option Reason)
  | returned (detection : DetectionResult) (revoked : Option Reason)
  | raised

namespace QualityGate

def step (sourceId : Nat) (policy : QualityPolicy) (call : GateCall) (g : QualityGate) : GateReply × QualityGate :=
  match call with
  | .assess frame execution context measurement =>
    let (decision, g) := g.assess sourceId policy frame execution context measurement
    (.decided g.decisions.length decision (if decision.quality = .sufficient then none else some execution.reason),
      { g with latest := some g.decisions.length, decisions := g.decisions ++ [decision] })
  | .invalidate execution =>
    if h : execution.available = true then (.raised, g)
    else
      (.returned (.unknown execution.reason (by cases execution <;> simp_all [Execution.available, Execution.reason]))
        (some execution.reason), { g with good := 0, latest := none })
  | .guardResult decision result execution frame =>
    let unavailable := !execution.available
    let g' := if unavailable then { g with good := 0, latest := none } else g
    let revoked := if unavailable then some execution.reason else none
    if decision ≠ g.latest then (.returned (.unknown .stale stale_ne) revoked, g')
    else
      -- both may be None, which is no decision
      match decision.bind (g.decisions[·]?) with
      | none => (.raised, g')
      | some d => (.returned (guarded d result execution frame) revoked, g')

end QualityGate

end Sentinel.Detection.Gate
