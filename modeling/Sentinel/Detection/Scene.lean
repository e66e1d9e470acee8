import Sentinel.Detection.Geometry
import Sentinel.Lib.History

/-!
# The scene detector

`SceneDetector` of `server/app/detection/roi/detector.py`: a calibrated detector that confirms a movement of the server
or a tampering of the camera from a run of consecutive samples. The checks of its constructor are left out, and what an
observation copies from the calibration; `stream_id` is never None because a calibration has a reference.
-/

namespace Sentinel.Detection.Scene

/-- `RETIRED_STREAM_LIMIT`. -/
def retiredStreamLimit : Nat := 64

/-- `CriticalKind`. -/
inductive CriticalKind
  | serverMovement
  | cameraTamper
  deriving DecidableEq, Repr

/-- The reasons of an observation. -/
inductive Reason
  | streamHistoryExhausted
  | clockOrSequenceRegression
  | retiredStream
  | referenceShapeMismatch
  | streamOrSamplingDiscontinuity
  | qualityUnavailable
  | roiOccluded
  | globalAlignmentUnavailable
  | roiReferenceUnavailableOrOccluded
  | serverGeometryChanged
  | awaitingConfirmation
  | referenceGeometryMatches
  | globalSceneShift
  | sceneObscuredOrChanged
  | sceneUnmatchedPersistently
  | backgroundMatches
  | sourceLossAfterSceneShift
  | sourceUnavailable
  deriving DecidableEq, Repr

/-- `Policy`, as far as the samples are judged by it. -/
structure Policy where
  globalSearchPixels : Nat
  roiSearchPixels : Nat
  globalQuarterTurns : List Nat
  roiQuarterTurns : List Nat
  maximumMatchError : ℚ
  minimumMatchMargin : ℚ
  minimumCoverage : ℚ
  movementPixels : Nat
  cameraShiftPixels : Nat
  darkPixelCeiling : Nat
  cameraDarkFraction : ℚ
  confirmationFrames : Nat
  confirmationNs : Nat
  maximumGapNs : Nat
  lossCorrelationNs : Nat
  several : 2 ≤ confirmationFrames

/-- `Calibration`. -/
structure Calibration where
  sourceId : Nat
  polygon : List Point
  reference : GrayFrame
  policy : Policy

namespace Calibration

variable (c : Calibration)

/-- The bounds of the polygon: the least and the greatest coordinates. -/
def bounds : Point × Point :=
  let xs := c.polygon.map Prod.fst
  let ys := c.polygon.map Prod.snd
  ((xs.foldl min (xs.headD 0), ys.foldl min (ys.headD 0)), (xs.foldl max (xs.headD 0), ys.foldl max (ys.headD 0)))

/-- Twice `frame_center`. -/
def frameCenter : Point := ((c.reference.width : Int) - 1, (c.reference.height : Int) - 1)

/-- Twice `roi_center`. -/
def roiCenter : Point := (c.bounds.1.1 + c.bounds.2.1, c.bounds.1.2 + c.bounds.2.2)

/-- The points of the reference, row by row. -/
def points : List Point :=
  (List.range c.reference.height).flatMap fun y => (List.range c.reference.width).map fun x => ((x : Int), (y : Int))

/-- `roi_points`. -/
def roiPoints : List Point := c.points.filter fun p => contains c.polygon p

/-- `background`: the points outside of the padded bounds. -/
def background : List Point :=
  let padding : Int := c.policy.roiSearchPixels
  c.points.filter fun p =>
    !(decide (c.bounds.1.1 - padding ≤ p.1 ∧ p.1 ≤ c.bounds.2.1 + padding) &&
      decide (c.bounds.1.2 - padding ≤ p.2 ∧ p.2 ≤ c.bounds.2.2 + padding))

/-- `_good_match`. -/
def goodMatch (m : Match) : Bool :=
  decide (m.error ≤ c.policy.maximumMatchError) && (m.margin.all fun margin => c.policy.minimumMatchMargin ≤ margin)

/-- `global_match` of a frame. -/
def globalMatch (f : GrayFrame) : Option Match :=
  templateMatch c.reference f c.background (candidates c.policy.globalSearchPixels c.policy.globalQuarterTurns)
    c.frameCenter c.policy.minimumCoverage

/-- `roi_match` of a frame, under the global transform. -/
def roiMatch (f : GrayFrame) (outer : Transform) : Option Match :=
  templateMatch c.reference f c.roiPoints (candidates c.policy.roiSearchPixels c.policy.roiQuarterTurns)
    c.roiCenter c.policy.minimumCoverage (some (outer, c.frameCenter))

/-- The fraction of dark pixels. -/
def dark (f : GrayFrame) : ℚ :=
  (f.pixels.filter fun value => decide (value ≤ c.policy.darkPixelCeiling)).length / f.pixels.length

/-- What is measured of the region of interest: its transform and a confidence, or why it is not measured. -/
def measureMovement (f : GrayFrame) (occluded : Option Bool) : Reason ⊕ Transform × ℚ :=
  if occluded = some true then .inl .roiOccluded
  else
    match (c.globalMatch f).filter c.goodMatch with
    | none => .inl .globalAlignmentUnavailable
    | some g =>
      match (c.roiMatch f g.transform).filter c.goodMatch with
      | none => .inl .roiReferenceUnavailableOrOccluded
      | some r => .inr (r.transform, min (1 - g.error) (1 - r.error))

/-- What is measured of the whole scene. -/
structure SceneMeasure where
  reason : Reason
  confidence : Option ℚ
  globalShift : Bool := false
  /-- Whether the scene changed; none if that is indeterminate. -/
  changed : Option Bool

/-- The measurements of the scene. -/
def measureScene (f : GrayFrame) : SceneMeasure :=
  let good := (c.globalMatch f).filter c.goodMatch
  let dark := c.dark f
  let obscured := decide (c.policy.cameraDarkFraction ≤ dark)
  let registered := (c.globalMatch f).any fun m => m.error ≤ c.policy.maximumMatchError
  let difference := if good.isSome then 0 else dissimilarity c.reference f c.background
  let unmatched := !registered && decide (c.policy.maximumMatchError < difference)
  match good.filter fun g => g.transform.reaches c.policy.cameraShiftPixels with
  | some g =>
    { reason := .globalSceneShift, confidence := some (1 - g.error), globalShift := true, changed := some true }
  | none =>
    if obscured then { reason := .sceneObscuredOrChanged, confidence := some dark, changed := some true }
    else if unmatched then
      { reason := .sceneUnmatchedPersistently, confidence := some difference, changed := some true }
    else
      match good with
      | none => { reason := .globalAlignmentUnavailable, confidence := none, changed := none }
      | some g => { reason := .backgroundMatches, confidence := some (1 - g.error), changed := some false }

end Calibration

/-- `_Confirmation`. -/
structure Confirmation where
  firstNs : Option Nat := none
  count : Nat := 0
  emitted : Bool := false
  deriving DecidableEq

/-- What `observe` returns. -/
structure Verdict where
  confirmed : Bool := false
  emit : Bool := false

/-- `observe`; `interrupt` leaves the empty confirmation. -/
def Confirmation.observe (k : Confirmation) (present : Bool) (now : Nat) (policy : Policy) : Verdict × Confirmation :=
  if !present then ({}, {})
  else
    let first := k.firstNs.getD now
    let count := k.count + 1
    let confirmed := decide (policy.confirmationFrames ≤ count) && decide (first + policy.confirmationNs ≤ now)
    (⟨confirmed, confirmed && !k.emitted⟩, ⟨some first, count, k.emitted || confirmed⟩)

/-- The state of the detector. -/
structure Detector where
  streamId : Nat
  retiredStreams : Finset Nat := ∅
  lastSequence : Nat
  lastNs : Int := -1
  exhausted : Bool := false
  /-- `last_scene_shift_ns` and its confidence. -/
  lastSceneShift : Option (Nat × ℚ) := none
  shiftReported : Bool := false
  movement : Confirmation := {}
  tamper : Confirmation := {}

/-- The constructor: samples continue after the reference. -/
def Detector.init (c : Calibration) : Detector where
  streamId := c.reference.streamId
  lastSequence := c.reference.sequence

/-- `CriticalObservation`. -/
structure CriticalObservation where
  kind : CriticalKind
  streamId : Nat
  sequence : Option Nat
  observedAt : Nat
  monotonicNs : Nat
  confidence : ℚ
  reason : Reason

/-- `SceneObservation`. -/
structure SceneObservation where
  streamId : Nat
  sequence : Option Nat
  observedAt : Nat
  monotonicNs : Nat
  movement : Observation := .unknown
  movementQuality : Quality := .unknown
  tamper : Observation := .unknown
  tamperQuality : Quality := .unknown
  movementReason : Reason
  tamperReason : Reason
  movementConfidence : Option ℚ := none
  tamperConfidence : Option ℚ := none
  globalTransform : Option Transform := none
  relativeTransform : Option Transform := none
  critical : List CriticalObservation := []

/-- How a call ends. -/
inductive Outcome
  | raised
  | observed (o : SceneObservation)

/-- What accompanies a sample; none where it is not of its type. -/
structure Metadata where
  observedAt : Option Nat
  movementQuality : Option Quality
  tamperQuality : Option Quality
  roiOccluded : Option (Option Bool)

/-- Metadata that `_describe` accepts. -/
structure Described where
  observedAt : Nat
  movementQuality : Quality
  tamperQuality : Quality
  roiOccluded : Option Bool

/-- `_describe`. -/
def Metadata.describe (m : Metadata) : Option Described := do
  let observedAt ← m.observedAt
  let movementQuality ← m.movementQuality
  let tamperQuality ← m.tamperQuality
  let roiOccluded ← m.roiOccluded
  return ⟨observedAt, movementQuality, tamperQuality, roiOccluded⟩

/-- A call of the detector; an argument is none where it is not of its type. -/
inductive Call
  | inspect (frame : Option GrayFrame) (monotonicNs : Option Nat) (metadata : Metadata)
  | sourceLost (monotonicNs observedAt : Option Nat) (healthSignalTrusted : Option Bool)

/-- `_identify`: the sample of the source that a call is about. -/
def identify (c : Calibration) (frame : Option GrayFrame) (monotonicNs : Option Nat) : Option (GrayFrame × Nat) :=
  match frame, monotonicNs with
  | some f, some now => if f.sourceId = c.sourceId then some (f, now) else none
  | _, _ => none

namespace Detector

variable (c : Calibration) (d : Detector)

/-- `_interrupt`. -/
def interrupt : Detector := { d with movement := {}, tamper := {} }

/-- The clock of the detector does not go back. -/
def advance (now : Nat) : Detector := { d with lastNs := max d.lastNs now }

/-- `_consume`. -/
def consume (f : GrayFrame) (now : Nat) : Detector :=
  if d.streamId ≠ f.streamId then
    if f.streamId ∈ d.retiredStreams then d.advance now
    else if retiredStreamLimit ≤ d.retiredStreams.card then { d.advance now with exhausted := true }
    else
      { d.advance now with
        retiredStreams := insert d.streamId d.retiredStreams
        streamId := f.streamId
        lastSequence := f.sequence }
  else { d.advance now with lastSequence := max d.lastSequence f.sequence }

/-- An observation of a refused sample. -/
def refusal (f : GrayFrame) (now : Nat) (m : Described) (streamId : Nat) (reason : Reason) : Outcome :=
  .observed
    { streamId, sequence := some f.sequence, observedAt := m.observedAt, monotonicNs := now
      movementReason := reason, tamperReason := reason }

/-- What a sample says of one kind. -/
structure Part where
  observation : Observation := .unknown
  reason : Reason := .qualityUnavailable
  confidence : Option ℚ := none
  relative : Option Transform := none
  critical : List CriticalObservation := []

/-- `_event`. -/
def event (kind : CriticalKind) (f : GrayFrame) (now : Nat) (m : Described) (confidence : ℚ) (reason : Reason) :
    CriticalObservation :=
  ⟨kind, d.streamId, some f.sequence, m.observedAt, now, confidence, reason⟩

/-- What is observed of a condition that is present or not. -/
def observation (present confirmed : Bool) : Observation :=
  if confirmed then .present else if present then .unknown else .absent

/-- The part of `inspect` about the movement of the server. -/
def judgeMovement (f : GrayFrame) (now : Nat) (m : Described) : Part × Confirmation :=
  if m.movementQuality = .sufficient then
    match c.measureMovement f m.roiOccluded with
    | .inl reason => ({ reason }, {})
    | .inr (relative, confidence) =>
      let displaced := relative.reaches c.policy.movementPixels
      let r := d.movement.observe displaced now c.policy
      let reason : Reason :=
        if r.1.confirmed then .serverGeometryChanged
        else if displaced then .awaitingConfirmation else .referenceGeometryMatches
      ({ observation := observation displaced r.1.confirmed
         reason
         confidence := some confidence
         relative := some relative
         critical := if r.1.emit then [d.event .serverMovement f now m confidence reason] else [] }, r.2)
  else ({}, {})

/-- The shift that a measured scene leaves to correlate with: a new one, none once the background registers again. -/
def trackedShift (s : Calibration.SceneMeasure) (now : Nat) : Option (Nat × ℚ) :=
  if s.globalShift then some (now, s.confidence.getD 0)
  else if s.changed = some false then none else d.lastSceneShift

/-- The part of `inspect` about the tampering of the camera, with the confirmation and the state of the shift. -/
def judgeTamper (f : GrayFrame) (now : Nat) (m : Described) : Part × Confirmation × Option (Nat × ℚ) × Bool :=
  if m.tamperQuality = .sufficient then
    let s := c.measureScene f
    let reported := d.shiftReported && !(s.globalShift && d.lastSceneShift.isNone)
    match s.changed with
    | none => ({ reason := s.reason, confidence := s.confidence }, {}, d.trackedShift s now, reported)
    | some changed =>
      let r := d.tamper.observe changed now c.policy
      ({ observation := observation changed r.1.confirmed
         reason := s.reason
         confidence := s.confidence
         critical := if r.1.emit then [d.event .cameraTamper f now m (s.confidence.getD 0) s.reason] else [] },
        r.2, d.trackedShift s now, reported || r.1.emit && s.globalShift)
  else ({}, {}, d.lastSceneShift, d.shiftReported)

/-- The end of `inspect`, for a sample that was not refused. -/
def judge (f : GrayFrame) (now : Nat) (m : Described) : Outcome × Detector :=
  let movement := d.judgeMovement c f now m
  let tamper := d.judgeTamper c f now m
  (.observed
    { streamId := d.streamId
      sequence := some f.sequence
      observedAt := m.observedAt
      monotonicNs := now
      movement := movement.1.observation
      movementQuality := m.movementQuality
      tamper := tamper.1.observation
      tamperQuality := m.tamperQuality
      movementReason := movement.1.reason
      tamperReason := tamper.1.reason
      movementConfidence := movement.1.confidence
      tamperConfidence := tamper.1.confidence
      globalTransform := ((c.globalMatch f).filter c.goodMatch).map Match.transform
      relativeTransform := movement.1.relative
      critical := movement.1.critical ++ tamper.1.critical },
    { d with
      movement := movement.2
      tamper := tamper.2.1
      lastSceneShift := tamper.2.2.1
      shiftReported := tamper.2.2.2 })

/-- The sample does not come after what was seen. -/
def regressed (f : GrayFrame) (now : Nat) : Bool :=
  decide ((now : Int) ≤ d.lastNs) || decide (d.streamId = f.streamId) && decide (f.sequence ≤ d.lastSequence)

/-- Too much time passed since the last sample. -/
def gap (now : Nat) : Bool := decide (0 ≤ d.lastNs) && decide ((c.policy.maximumGapNs : Int) < now - d.lastNs)

/-- The frame is not of the shape of the reference. -/
def misshapen (f : GrayFrame) : Bool :=
  decide (f.channels ≠ 1) || decide ((f.width, f.height) ≠ (c.reference.width, c.reference.height))

/-- The sample is recorded: the source has advanced past it. -/
def record (restarted gap : Bool) (f : GrayFrame) (now : Nat) : Detector :=
  { d with
    retiredStreams := if restarted then insert d.streamId d.retiredStreams else d.retiredStreams
    streamId := f.streamId
    lastSequence := f.sequence
    lastNs := now
    lastSceneShift := if restarted || gap then none else d.lastSceneShift }

/-- `inspect`, after the sample was recorded. -/
def inspectRecorded (restarted gap : Bool) (f : GrayFrame) (now : Nat) (m : Described) : Outcome × Detector :=
  if misshapen c f then (refusal f now m d.streamId .referenceShapeMismatch, d.interrupt)
  else if restarted || gap then (refusal f now m d.streamId .streamOrSamplingDiscontinuity, d.interrupt)
  else if m.movementQuality ≠ .sufficient ∧ m.tamperQuality ≠ .sufficient then
    (.observed
      { streamId := d.streamId, sequence := some f.sequence, observedAt := m.observedAt, monotonicNs := now
        movementQuality := m.movementQuality, tamperQuality := m.tamperQuality
        movementReason := .qualityUnavailable, tamperReason := .qualityUnavailable }, d.interrupt)
  else d.judge c f now m

/-- `inspect`, for an identified sample with valid metadata. -/
def inspectDescribed (f : GrayFrame) (now : Nat) (m : Described) : Outcome × Detector :=
  if d.exhausted then (refusal f now m f.streamId .streamHistoryExhausted, d.interrupt.advance now)
  else if d.regressed f now then (refusal f now m d.streamId .clockOrSequenceRegression, d.interrupt)
  else
    let restarted := decide (d.streamId ≠ f.streamId)
    if restarted && decide (f.streamId ∈ d.retiredStreams) then
      (refusal f now m f.streamId .retiredStream, { d.interrupt with lastNs := now })
    else if restarted && decide (retiredStreamLimit ≤ d.retiredStreams.card) then
      (refusal f now m f.streamId .streamHistoryExhausted, { d.interrupt with lastNs := now, exhausted := true })
    else
      -- the progression is recorded before the sample may be refused
      (d.record restarted (d.gap c now) f now).inspectRecorded c restarted (d.gap c now) f now m

/-- `inspect`. -/
def inspect (frame : Option GrayFrame) (monotonicNs : Option Nat) (metadata : Metadata) : Outcome × Detector :=
  match identify c frame monotonicNs with
  | none => (.raised, d.interrupt)
  | some (f, now) =>
    match metadata.describe with
    | none => (.raised, d.interrupt.consume f now)
    | some m => d.inspectDescribed c f now m

/-- `source_lost`. -/
def sourceLost (monotonicNs observedAt : Option Nat) (trusted : Option Bool) : Outcome × Detector :=
  match monotonicNs, observedAt, trusted with
  | some now, some observedAt, some trusted =>
    if d.exhausted then
      (.observed
        { streamId := d.streamId, sequence := none, observedAt, monotonicNs := now
          movementReason := .streamHistoryExhausted, tamperReason := .streamHistoryExhausted }, d.interrupt.advance now)
    else
      match d.lastSceneShift.filter fun shift =>
          trusted && decide (d.lastNs ≤ now) && decide (shift.1 ≤ now) &&
            decide (now ≤ shift.1 + c.policy.lossCorrelationNs) with
      | none =>
        (.observed
          { streamId := d.streamId, sequence := none, observedAt, monotonicNs := now
            movementReason := .sourceUnavailable, tamperReason := .sourceUnavailable }, d.interrupt.advance now)
      | some (_, confidence) =>
        (.observed
          { streamId := d.streamId, sequence := none, observedAt, monotonicNs := now
            movementReason := .sourceUnavailable
            tamper := .present
            tamperQuality := .sufficient
            tamperReason := .sourceLossAfterSceneShift
            tamperConfidence := some confidence
            critical :=
              if d.shiftReported then []
              else [⟨.cameraTamper, d.streamId, none, observedAt, now, confidence, .sourceLossAfterSceneShift⟩] },
          { d.interrupt.advance now with shiftReported := true })
  | some now, _, _ => (.raised, d.interrupt.advance now)
  | none, _, _ => (.raised, d.interrupt)

end Detector

/-- One call. -/
def step (c : Calibration) (i : Call) (d : Detector) : Outcome × Detector :=
  match i with
  | .inspect frame monotonicNs metadata => d.inspect c frame monotonicNs metadata
  | .sourceLost monotonicNs observedAt trusted => d.sourceLost c monotonicNs observedAt trusted

/-- A call of a run. -/
abbrev SceneEvent := Event Detector Call Outcome

/-! ## What the calls of a run amount to -/

/-- The sample that the call is about. -/
def sample (c : Calibration) (e : SceneEvent) : Option (GrayFrame × Nat) :=
  match e.input with
  | .inspect frame monotonicNs _ => identify c frame monotonicNs
  | .sourceLost _ _ _ => none

/-- The metadata of the call. -/
def described (e : SceneEvent) : Option Described :=
  match e.input with
  | .inspect _ _ metadata => metadata.describe
  | .sourceLost _ _ _ => none

/-- The sample was refused in the state of the detector, whatever its quality. -/
def refused (c : Calibration) (d : Detector) (f : GrayFrame) (now : Nat) : Bool :=
  d.exhausted || d.regressed f now || decide (d.streamId ≠ f.streamId) || d.gap c now || Detector.misshapen c f

/-- The measured condition of the kind holds, with sufficient quality. -/
def holds (c : Calibration) (kind : CriticalKind) (f : GrayFrame) (m : Described) : Bool :=
  match kind with
  | .serverMovement =>
    decide (m.movementQuality = .sufficient) &&
      match c.measureMovement f m.roiOccluded with
      | .inl _ => false
      | .inr (relative, _) => relative.reaches c.policy.movementPixels
  | .cameraTamper => decide (m.tamperQuality = .sufficient) && decide ((c.measureScene f).changed = some true)

/-- The call is an `inspect` that passed every refusal and whose measured condition holds. -/
def qualifies (c : Calibration) (kind : CriticalKind) (e : SceneEvent) : Bool :=
  match sample c e, described e with
  | some (f, now), some m => !refused c e.before f now && holds c kind f m
  | _, _ => false

/-- The call emits a confirmation of the kind. -/
def emits (kind : CriticalKind) (e : SceneEvent) : Bool :=
  match e.output with
  | .raised => false
  | .observed o => o.critical.any fun x => decide (x.kind = kind) && decide (x.reason ≠ .sourceLossAfterSceneShift)

/-- The maximal run of qualifying calls at the head of a history, the latest first. -/
def run (c : Calibration) (kind : CriticalKind) (h : List SceneEvent) : List SceneEvent :=
  h.takeWhile (qualifies c kind)

/-- The calls of the run, the latest of which is at `now`, span the time of a confirmation. -/
def spans (c : Calibration) (h : List SceneEvent) : Bool :=
  match h.head?.bind (sample c), h.getLast?.bind (sample c) with
  | some (_, now), some (_, first) => decide (first + c.policy.confirmationNs ≤ now)
  | _, _ => false

/-- A sample continues an earlier one. -/
def Follows (c : Calibration) (e earlier : SceneEvent) : Prop :=
  ∃ f now f' now', sample c e = some (f, now) ∧ sample c earlier = some (f', now') ∧ f.streamId = f'.streamId ∧
    f'.sequence < f.sequence ∧ now' < now ∧ now ≤ now' + c.policy.maximumGapNs

/-- The frame of the call was accepted, or it was consumed because of its metadata, and it is of a stream that was not
replaced before: it replaces the stream of the detector. -/
def replaces (c : Calibration) (e : SceneEvent) (streamId : Nat) : Bool :=
  match sample c e with
  | none => false
  | some (f, now) =>
    decide (e.before.streamId = streamId) && decide (f.streamId ≠ streamId) &&
      decide (f.streamId ∉ e.before.retiredStreams) &&
      ((described e).isNone || !(e.before.exhausted || e.before.regressed f now))

/-! ## Source losses and shift episodes -/

/-- The reason that the call gives about the tampering of the camera. -/
def tamperReason (e : SceneEvent) : Option Reason :=
  match e.output with
  | .raised => none
  | .observed o => some o.tamperReason

/-- The call measured a global shift. -/
def shifts (e : SceneEvent) : Bool := decide (tamperReason e = some .globalSceneShift)

/-- The sample of the call was evaluated and matched the calibrated background. -/
def matchesBackground (e : SceneEvent) : Bool := decide (tamperReason e = some .backgroundMatches)

/-- The frame of the call was consumed because of its metadata. -/
def consumes (c : Calibration) (e : SceneEvent) : Bool := (sample c e).isSome && (described e).isNone

/-- The sample of the call was recorded after a sampling gap. -/
def acceptsGap (c : Calibration) (e : SceneEvent) : Bool :=
  match sample c e, described e with
  | some (f, now), some _ =>
    !(e.before.exhausted || e.before.regressed f now) && e.before.gap c now &&
      (decide (e.before.streamId = f.streamId) ||
        decide (f.streamId ∉ e.before.retiredStreams) && decide (e.before.retiredStreams.card < retiredStreamLimit))
  | _, _ => false

/-- The call is a `source_lost` that emits a tampering of the camera. -/
def lossEmits (e : SceneEvent) : Bool :=
  match e.input, e.output with
  | .sourceLost _ _ _, .observed o => o.critical.any fun x => x.kind = .cameraTamper
  | _, _ => false

/-- The call measured a global shift when none is tracked. -/
def starts (e : SceneEvent) : Bool := shifts e && e.before.lastSceneShift.isNone

end Sentinel.Detection.Scene
