import Sentinel.Lib.Table

/-!
# Inference sampler

`server/app/media/profiles/sampling.py`: which decoded frames of a stream are given to inference. Timestamps and rates are exact
fractions.
-/

namespace Sentinel.Media

/-- `InferenceProfile`, with the checks of its `__post_init__`. -/
structure InferenceProfile where
  width : Nat
  height : Nat
  fps : ℚ
  maximumTimestampGap : ℚ
  sized : 0 < width ∧ 0 < height
  fps_pos : 0 < fps
  gap_pos : 0 < maximumTimestampGap

/-- Why a frame is emitted or not. -/
inductive SampleReason
  | staleStream
  | firstFrame
  | duplicateTimestamp
  | timestampReset
  | timestampGap
  | cadence
  deriving DecidableEq, Repr

/-- What `decide` returns. -/
structure SampleDecision where
  emit : Bool
  reason : SampleReason
  width : Nat
  height : Nat
  deriving DecidableEq, Repr

/-- `_previous` and `_next`, which are set together. -/
structure Reference where
  previous : ℚ
  next : ℚ

/-- The state of a sampler. -/
structure InferenceSampler where
  profile : InferenceProfile
  streamId : UUID
  reference : Option Reference

namespace InferenceSampler

/-- `__init__`. -/
def new (profile : InferenceProfile) (streamId : UUID) : InferenceSampler where
  profile := profile
  streamId := streamId
  reference := none

def period (s : InferenceSampler) : ℚ := 1 / s.profile.fps

def result (s : InferenceSampler) (emit : Bool) (reason : SampleReason) : SampleDecision where
  emit := emit
  reason := reason
  width := s.profile.width
  height := s.profile.height

/-- `select` once its arguments are checked: the decision about a frame of the stream at a timestamp. -/
def selectAt (s : InferenceSampler) (timestamp : ℚ) : InferenceSampler × SampleDecision :=
  match s.reference with
  | none => ({ s with reference := some ⟨timestamp, timestamp + s.period⟩ }, s.result true .firstFrame)
  | some r =>
    if timestamp = r.previous then (s, s.result false .duplicateTimestamp)
    else
      let delta := timestamp - r.previous
      if delta < 0 ∨ s.profile.maximumTimestampGap < delta then
        ({ s with reference := some ⟨timestamp, timestamp + s.period⟩ },
          s.result true (if delta < 0 then .timestampReset else .timestampGap))
      else if timestamp < r.next then
        ({ s with reference := some ⟨timestamp, r.next⟩ }, s.result false .cadence)
      else
        -- jump directly to the next deadline
        let periods : Int := ⌊(timestamp - r.next) / s.period⌋ + 1
        ({ s with reference := some ⟨timestamp, r.next + periods * s.period⟩ }, s.result true .cadence)

def select (s : InferenceSampler) (streamId : UUID) (pts : Int) (timeBase : ℚ) :
    Except String (InferenceSampler × SampleDecision) :=
  if timeBase ≤ 0 then .error "time_base must be a positive Fraction"
  else if streamId ≠ s.streamId then .ok (s, s.result false .staleStream)
  else .ok (s.selectAt (pts * timeBase))

end InferenceSampler

/-- A decoded frame with a time base that `select` accepts. -/
structure Frame where
  pts : Int
  timeBase : ℚ
  timeBase_pos : 0 < timeBase

def Frame.timestamp (frame : Frame) : ℚ := frame.pts * frame.timeBase

/-- A frame's time with the decision about it. -/
structure Answer where
  timestamp : ℚ
  decision : SampleDecision

/-- The decision starts a new part of the stream. -/
def Answer.starts (a : Answer) : Prop :=
  a.decision.reason = .firstFrame ∨ a.decision.reason = .timestampReset ∨ a.decision.reason = .timestampGap

namespace InferenceSampler

/-- The answers of calls of `select` on the sampler's stream, one after another. -/
def answers (s : InferenceSampler) : List Frame → List Answer
  | [] => []
  | frame :: rest =>
    match s.select s.streamId frame.pts frame.timeBase with
    | .ok (s', decision) => ⟨frame.timestamp, decision⟩ :: s'.answers rest
    | .error _ => s.answers rest

end InferenceSampler

/-- The cell of a time in the grid of a start and a period. -/
def cell (start period time : ℚ) : Int := ⌊(time - start) / period⌋

end Sentinel.Media
