import Sentinel.Lib.History
import Sentinel.Media.Sampling

/-!
# Source pipeline

`server/app/media/profiles/pipeline.py`: the packets of one stream are queued for the recording and, while somebody watches, for
a viewer, and are written from the two queues to the adapters. An adapter returns from a call or raises as it likes. What the
lease of the pipeline says is part of every operation, and so is what the viewer's factory does. The plan of a path is only
handed to its factory and is left out.
-/

namespace Sentinel.Media

/-! ## Profiles and packets -/

/-- `VideoFormat`; what of it is only compared is one description. -/
structure VideoFormat where
  description : Nat
  timeBase : ℚ
  verified : Bool
  videoOnly : Bool
  timeBase_pos : 0 < timeBase
  deriving DecidableEq

/-- What a source captures. -/
structure CaptureProfile where
  format : VideoFormat
  maximumTimestampGap : ℚ
  gap_pos : 0 < maximumTimestampGap

/-- `SourceProfiles`; recording and viewer profiles are a format and nothing else. -/
structure SourceProfiles where
  capture : CaptureProfile
  recording : VideoFormat
  inference : InferenceProfile
  viewer : VideoFormat

/-- The bounds of a queue. -/
structure QueueLimits where
  maximumPackets : Nat
  maximumBytes : Nat
  packets_pos : 0 < maximumPackets
  bytes_pos : 0 < maximumBytes

/-- A packet of a stream. -/
structure CompressedPacket where
  sourceId : UUID
  streamId : UUID
  sequence : Nat
  pts : Int
  dts : Int
  timeBase : ℚ
  keyframe : Bool
  data : List UInt8
  timeBase_pos : 0 < timeBase
  data_nonempty : data ≠ []

/-! ## Adapters -/

/-- The calls of an adapter. -/
inductive Call
  | write (packet : CompressedPacket)
  | reset
  | close

/-- A call of an adapter and whether the adapter returned from it. -/
structure Reply where
  call : Call
  returned : Bool

/-- `PacketAdapter`: whether it returns from a call, given the calls before it, the latest first. -/
abbrev PacketAdapter := List Reply → Call → Bool

/-- What an `AdapterFactory` does; no factory, and one that returns nothing, are `unavailable`. -/
inductive Construction
  | unavailable
  | raised
  | made (adapter : PacketAdapter)

/-- The packets written since the adapter was made or since its last call that was not a write it returned from. -/
def currentRun : List Reply → List CompressedPacket
  | ⟨.write packet, true⟩ :: earlier => currentRun earlier ++ [packet]
  | _ => []

/-- The packets written before that, from one such call to the next. -/
def endedRuns : List Reply → List (List CompressedPacket)
  | [] => []
  | ⟨.write _, true⟩ :: earlier => endedRuns earlier
  | _ :: earlier => currentRun earlier :: endedRuns earlier

/-- The packets written to an adapter, cut at every reset, failure and close. -/
def runs (calls : List Reply) : List (List CompressedPacket) := currentRun calls :: endedRuns calls

/-- The number of packets written to an adapter. -/
def written : List Reply → Nat
  | [] => 0
  | ⟨.write _, true⟩ :: earlier => written earlier + 1
  | _ :: earlier => written earlier

/-! ## Packet paths -/

/-- Why a path is in its state. -/
inductive PathReason
  | awaitingKeyframe
  | priorViewerLoss
  | ready
  | adapterUnavailable
  | adapterStartFailed
  | packetExceedsByteLimit
  | backpressure
  | adapterWriteFailed
  | adapterResetFailed
  | adapterCloseFailed
  | timeBaseChanged
  | sequenceGap
  | decodeTimestampReset
  | decodeTimestampGap
  | closed
  deriving DecidableEq, Repr

/-- `PathStatus` without the adapter's own state. -/
structure PathStatus where
  active : Bool
  available : Bool
  failed : Bool
  queuedPackets : Nat
  queuedBytes : Int
  droppedPackets : Nat
  skippedUntilKeyframe : Nat
  discontinuities : Nat
  awaitingKeyframe : Bool
  reason : PathReason

/-- `_PacketPath`. The last four fields record what the path went through; the source keeps no such record. -/
structure PacketPath where
  limits : QueueLimits
  queue : List CompressedPacket := []
  bytes : Int := 0
  dropped : Nat
  skipped : Nat
  discontinuities : Nat
  awaitingKeyframe : Bool := true
  closed : Bool := false
  failed : Bool := false
  reason : PathReason
  adapter : Option PacketAdapter := none
  offered : List CompressedPacket := []
  /-- The calls of the path's adapter, the latest first. -/
  calls : List Reply := []
  droppedBefore : Nat
  skippedBefore : Nat

namespace PacketPath

/-- `__init__`. -/
def new (factory : Construction) (limits : QueueLimits) (previous : Option PathStatus) : PacketPath :=
  let dropped := (previous.map PathStatus.droppedPackets).getD 0
  let skipped := (previous.map PathStatus.skippedUntilKeyframe).getD 0
  let discontinuities := (previous.map PathStatus.discontinuities).getD 0
  let path : PacketPath :=
    { limits, dropped, skipped, discontinuities
      reason := if dropped ≠ 0 ∨ discontinuities ≠ 0 then .priorViewerLoss else .awaitingKeyframe
      droppedBefore := dropped
      skippedBefore := skipped }
  match factory with
  | .unavailable => { path with reason := .adapterUnavailable }
  | .raised => { path with reason := .adapterStartFailed, failed := true }
  | .made adapter => { path with adapter := some adapter }

/-- A call of the adapter: whether it returned. -/
def call (path : PacketPath) (adapter : PacketAdapter) (c : Call) : Bool × PacketPath :=
  (adapter path.calls c, { path with calls := ⟨c, adapter path.calls c⟩ :: path.calls })

/-- `_queue.clear()` with the packets counted as dropped. -/
def clear (path : PacketPath) : PacketPath :=
  { path with dropped := path.dropped + path.queue.length, queue := [], bytes := 0 }

/-- `_release_adapter`. -/
def releaseAdapter (path : PacketPath) : PacketPath :=
  match path.adapter with
  | none => path
  | some adapter =>
    match path.call adapter .close with
    | (true, path) => { path with adapter := none }
    | (false, path) => { path with failed := true, reason := .adapterCloseFailed }

/-- `_fail`. -/
def fail (path : PacketPath) (reason : PathReason) : PacketPath :=
  { path.clear with failed := true, reason }.releaseAdapter

def discontinuity (path : PacketPath) (reason : PathReason) : PacketPath :=
  let path := { path.clear with
    discontinuities := path.discontinuities + 1, awaitingKeyframe := true, reason }
  match path.adapter with
  | none => path
  | some adapter =>
    if path.failed then path
    else
      match path.call adapter .reset with
      | (true, path) => path
      | (false, path) => path.fail .adapterResetFailed

/-- `offer` once there is room in the queue. -/
def enqueue (path : PacketPath) (packet : CompressedPacket) : Bool × PacketPath :=
  if path.failed then (false, { path with dropped := path.dropped + 1 })
  else if path.awaitingKeyframe ∧ ¬ packet.keyframe then
    if path.discontinuities ≠ 0 then (false, { path with dropped := path.dropped + 1 })
    -- joining between keyframes is normal
    else (false, { path with skipped := path.skipped + 1 })
  else
    (true, { path with
      awaitingKeyframe := false
      queue := path.queue ++ [packet]
      bytes := path.bytes + packet.data.length
      reason := if path.reason = .awaitingKeyframe then .ready else path.reason })

/-- The packet does not fit beside those queued. -/
def Crowded (path : PacketPath) (packet : CompressedPacket) : Prop :=
  path.limits.maximumPackets ≤ path.queue.length ∨ path.limits.maximumBytes < path.bytes + packet.data.length

instance (path : PacketPath) (packet : CompressedPacket) : Decidable (path.Crowded packet) :=
  inferInstanceAs (Decidable (_ ∨ _))

/-- The body of `offer`. -/
def take (path : PacketPath) (packet : CompressedPacket) : Bool × PacketPath :=
  if path.closed ∨ path.adapter.isNone ∨ path.failed then (false, { path with dropped := path.dropped + 1 })
  else if path.limits.maximumBytes < packet.data.length then
    let path := path.discontinuity .packetExceedsByteLimit
    (false, { path with dropped := path.dropped + 1 })
  else if path.Crowded packet then (path.discontinuity .backpressure).enqueue packet
  else path.enqueue packet

/-- `offer`, with the packet put on record. -/
def offer (path : PacketPath) (packet : CompressedPacket) : Bool × PacketPath :=
  let (queued, path) := path.take packet
  (queued, { path with offered := path.offered ++ [packet] })

/-- `pump`: the number of packets written, at most the budget. -/
def pump (path : PacketPath) : Nat → Nat × PacketPath
  | 0 => (0, path)
  | budget + 1 =>
    match path.queue with
    | [] => (0, path)
    | packet :: queue =>
      if path.failed then (0, path)
      else
        let path := { path with queue, bytes := path.bytes - packet.data.length }
        -- without an adapter the call of `write` is what raises
        let (returned, path) := (path.adapter.map (path.call · (.write packet))).getD (false, path)
        if returned then
          let (count, path) := path.pump budget
          (count + 1, path)
        else (0, { path with dropped := path.dropped + 1 }.fail .adapterWriteFailed)

def close (path : PacketPath) : PacketPath :=
  if path.closed then path.releaseAdapter
  else
    let path := { path.clear with closed := true }.releaseAdapter
    if path.failed then path else { path with reason := .closed }

def status (path : PacketPath) : PathStatus where
  active := !path.closed
  available := path.adapter.isSome
  failed := path.failed
  queuedPackets := path.queue.length
  queuedBytes := path.bytes
  droppedPackets := path.dropped
  skippedUntilKeyframe := path.skipped
  discontinuities := path.discontinuities
  awaitingKeyframe := path.awaitingKeyframe
  reason := path.reason

end PacketPath

/-! ## Pipelines -/

/-- `AdmissionLease`: the source it is for and whether the profiles can be claimed with it. -/
structure AdmissionLease where
  sourceId : UUID
  claims : SourceProfiles → Bool

/-- What the pipeline's claim says at an operation: `active`, `permits` and `transition`. -/
structure Claim where
  active : Bool
  permits : SourceProfiles → Bool
  transition : SourceProfiles → Bool

/-- Why an offer was taken or not. -/
inductive OfferReason
  | accepted
  | foreignSourceOrStream
  | staleOrDuplicatePacket
  | renegotiationRequired
  | discontinuous (reason : PathReason)
  deriving DecidableEq, Repr

/-- What `offer` returns. -/
structure OfferResult where
  recordingQueued : Bool
  viewerQueued : Bool
  reason : OfferReason
  deriving DecidableEq, Repr

/-- `SourcePipeline`. -/
structure SourcePipeline where
  sourceId : UUID
  streamId : UUID
  claimed : Bool
  profiles : SourceProfiles
  viewerLimits : QueueLimits
  viewers : Finset UUID := ∅
  viewer : Option PacketPath := none
  lastViewerStatus : Option PathStatus := none
  recording : PacketPath
  inference : InferenceSampler
  sequence : Option Nat := none
  dts : Option Int := none
  renegotiationRequired : Bool := false
  captureDiscontinuities : Nat := 0
  captureReasons : List PathReason := []
  closed : Bool := false
  /-- The viewer paths that were released; the source forgets them. -/
  released : List PacketPath := []

/-- The calls of the pipeline. -/
inductive Input
  | addViewer (subscriber : UUID) (factory : Construction)
  | removeViewer (subscriber : UUID)
  | replaceViewerProfile (profile : VideoFormat) (factory : Construction)
  | replaceInferenceProfile (profile : InferenceProfile)
  | offer (packet : CompressedPacket)
  | pump (maximumPacketsPerPath : Int)
  | close

/-- What a call of the pipeline returns. -/
inductive Output
  | raised (message : String)
  | returned
  | removed (released : Bool)
  | offered (result : OfferResult)
  | pumped (recording viewer : Nat)

namespace SourcePipeline

/-- `__init__`. -/
def new (sourceId streamId : UUID) (profiles : SourceProfiles) (recordingLimits viewerLimits : QueueLimits)
    (recordingFactory : Construction) (admission : Option AdmissionLease) : Except String SourcePipeline :=
  if ¬ profiles.capture.format.verified ∨ ¬ profiles.capture.format.videoOnly then
    .error "capture must be verified as video-only before ingest"
  else if ¬ profiles.recording.videoOnly ∨ ¬ profiles.viewer.videoOnly then
    .error "recording and viewer output must be video-only"
  else if admission.any fun lease => lease.sourceId != sourceId || !lease.claims profiles then
    .error "profiles are not admitted for this source"
  else .ok
    { sourceId, streamId, profiles, viewerLimits
      claimed := admission.isSome
      recording := PacketPath.new recordingFactory recordingLimits none
      inference := InferenceSampler.new profiles.inference streamId }

/-- `_close_viewer`. -/
def closeViewer (p : SourcePipeline) : SourcePipeline :=
  match p.viewer with
  | none => p
  | some path =>
    let path := path.close
    if path.status.available then { p with viewer := some path, lastViewerStatus := some path.status }
    else { p with viewer := none, lastViewerStatus := some path.status, released := path :: p.released }

/-- `_start_viewer`. -/
def startViewer (p : SourcePipeline) (factory : Construction) : SourcePipeline :=
  match p.viewer with
  | some _ => p
  | none => { p with viewer := some (PacketPath.new factory p.viewerLimits p.lastViewerStatus) }

def addViewer (p : SourcePipeline) (subscriber : UUID) (factory : Construction) : Output × SourcePipeline :=
  let q := if p.viewers = ∅ then p.startViewer factory else p
  (.returned, { q with viewers := insert subscriber q.viewers })

def removeViewer (p : SourcePipeline) (subscriber : UUID) : Output × SourcePipeline :=
  let p := { p with viewers := p.viewers.erase subscriber }
  let p := if p.viewers = ∅ then p.closeViewer else p
  (.removed p.viewer.isNone, p)

def replaceViewerProfile (p : SourcePipeline) (claim : Claim) (profile : VideoFormat) (factory : Construction) :
    Output × SourcePipeline :=
  if ¬ profile.videoOnly then (.raised "viewer output must be video-only", p)
  else if p.profiles.viewer = profile then (.returned, p)
  else
    let updated := { p.profiles with viewer := profile }
    if p.claimed ∧ ¬ claim.permits updated then (.raised "profiles are not admitted for this source", p)
    else
      let p := p.closeViewer
      if p.viewer.isSome then (.raised "viewer cleanup must finish before profile replacement", p)
      else if p.claimed ∧ ¬ claim.transition updated then (.raised "profiles are not admitted for this source", p)
      else
        let p := { p with profiles := updated }
        (.returned, if p.viewers = ∅ then p else p.startViewer factory)

def replaceInferenceProfile (p : SourcePipeline) (claim : Claim) (profile : InferenceProfile) : Output × SourcePipeline :=
  let updated := { p.profiles with inference := profile }
  if p.claimed ∧ ¬ claim.transition updated then (.raised "profiles are not admitted for this source", p)
  else (.returned, { p with
    profiles := updated
    inference := { p.inference with profile, reference := none } })

def discontinuity (p : SourcePipeline) (reason : PathReason) : SourcePipeline :=
  { p with
    captureDiscontinuities := p.captureDiscontinuities + 1
    captureReasons := p.captureReasons.insert reason
    recording := p.recording.discontinuity reason
    viewer := p.viewer.map (·.discontinuity reason) }

/-- What a packet of the stream shows about those missing before it. -/
def captureReason (p : SourcePipeline) (packet : CompressedPacket) : Option PathReason :=
  if p.sequence.any (packet.sequence ≠ · + 1) then some .sequenceGap
  else if p.dts.any (packet.dts < ·) then some .decodeTimestampReset
  else if p.dts.any fun dts =>
      p.profiles.capture.maximumTimestampGap < ((packet.dts - dts : Int) : ℚ) * packet.timeBase then
    some .decodeTimestampGap
  else none

/-- The end of `offer`: the packet goes to the two paths. -/
def fanOut (p : SourcePipeline) (packet : CompressedPacket) (reason : OfferReason) : OfferResult × SourcePipeline :=
  let recording := p.recording.offer packet
  let viewer := p.viewer.map (·.offer packet)
  (⟨recording.1, (viewer.map Prod.fst).getD false, reason⟩,
    { p with
      sequence := some packet.sequence
      dts := some packet.dts
      recording := recording.2
      viewer := viewer.map Prod.snd })

def offer (p : SourcePipeline) (packet : CompressedPacket) : OfferResult × SourcePipeline :=
  if packet.sourceId ≠ p.sourceId ∨ packet.streamId ≠ p.streamId then (⟨false, false, .foreignSourceOrStream⟩, p)
  else if p.sequence.any (packet.sequence ≤ ·) then (⟨false, false, .staleOrDuplicatePacket⟩, p)
  else if p.renegotiationRequired then (⟨false, false, .renegotiationRequired⟩, p)
  else if packet.timeBase ≠ p.profiles.capture.format.timeBase then
    (⟨false, false, .renegotiationRequired⟩, { p with renegotiationRequired := true }.discontinuity .timeBaseChanged)
  else
    match p.captureReason packet with
    | some reason => (p.discontinuity reason).fanOut packet (.discontinuous reason)
    | none => p.fanOut packet .accepted

def pump (p : SourcePipeline) (maximumPacketsPerPath : Int) : Output × SourcePipeline :=
  if maximumPacketsPerPath ≤ 0 then (.raised "pump budget must be a positive integer", p)
  else
    let recording := p.recording.pump maximumPacketsPerPath.toNat
    let viewer := p.viewer.map (·.pump maximumPacketsPerPath.toNat)
    (.pumped recording.1 ((viewer.map Prod.fst).getD 0),
      { p with recording := recording.2, viewer := viewer.map Prod.snd })

/-- `close`; giving the claim back changes nothing of the pipeline. -/
def close (p : SourcePipeline) : SourcePipeline :=
  let q := { p with closed := true, recording := p.recording.close }.closeViewer
  if p.closed then q else { q with viewers := ∅ }

/-- `_ensure_open`, before the rest of an operation. -/
def whenOpen (p : SourcePipeline) (claim : Claim) (operation : Output × SourcePipeline) : Output × SourcePipeline :=
  if p.closed then (.raised "pipeline is closed", p)
  else if p.claimed ∧ ¬ claim.active then (.raised "pipeline admission is no longer active", p)
  else operation

/-- One operation, with what the claim says while it runs. -/
def step (input : Input × Claim) (p : SourcePipeline) : Output × SourcePipeline :=
  match input.1 with
  | .addViewer subscriber factory => p.whenOpen input.2 (p.addViewer subscriber factory)
  | .removeViewer subscriber => p.removeViewer subscriber
  | .replaceViewerProfile profile factory => p.whenOpen input.2 (p.replaceViewerProfile input.2 profile factory)
  | .replaceInferenceProfile profile => p.whenOpen input.2 (p.replaceInferenceProfile input.2 profile)
  | .offer packet => p.whenOpen input.2 (.offered (p.offer packet).1, (p.offer packet).2)
  | .pump budget => p.whenOpen input.2 (p.pump budget)
  | .close => (.returned, p.close)

end SourcePipeline

/-! ## What the paths are for -/

/-- The packet that an operation gave to the paths. -/
def takenBy (e : Event SourcePipeline (Input × Claim) Output) : Option CompressedPacket :=
  match e.input.1, e.output with
  | .offer packet, .offered ⟨_, _, .accepted⟩ => some packet
  | .offer packet, .offered ⟨_, _, .discontinuous _⟩ => some packet
  | _, _ => none

/-- The packets of the stream that a history of operations gave to the paths. -/
def taken (h : List (Event SourcePipeline (Input × Claim) Output)) : List CompressedPacket := (h.filterMap takenBy).reverse

/-- A packet that a decoder can take right after another one. -/
def Follows (capture : CaptureProfile) (packet next : CompressedPacket) : Prop :=
  next.sequence = packet.sequence + 1 ∧ packet.dts ≤ next.dts ∧
    ((next.dts - packet.dts : Int) : ℚ) * capture.format.timeBase ≤ capture.maximumTimestampGap

/-- Packets that a decoder can take one after another. -/
structure Decodable (capture : CaptureProfile) (run : List CompressedPacket) : Prop where
  starts : ∀ packet ∈ run.head?, packet.keyframe = true
  follows : run.IsChain (Follows capture)

def queuedBytes (queue : List CompressedPacket) : Nat := (queue.map fun packet => packet.data.length).sum

/-- What a path with the limits promises, where the stream's packets are those given. -/
structure PacketPath.Faithful (capture : CaptureProfile) (limits : QueueLimits) (stream : List CompressedPacket)
    (path : PacketPath) : Prop where
  /-- Every run of packets written is decodable, and no offered packet is missing inside it. -/
  runs : ∀ run ∈ runs path.calls, Decodable capture run ∧ run <:+: path.offered
  offered : path.offered <:+: stream
  packets : path.queue.length ≤ limits.maximumPackets
  bytes : path.bytes ≤ limits.maximumBytes
  counter : path.bytes = queuedBytes path.queue
  /-- Every packet offered is written, queued, dropped or skipped. -/
  counted : (path.offered.length : Int)
    = written path.calls + path.queue.length + (path.dropped - path.droppedBefore) + (path.skipped - path.skippedBefore)

/-- All paths a pipeline has had keep their promise. -/
structure SourcePipeline.Faithful (capture : CaptureProfile) (recordingLimits viewerLimits : QueueLimits)
    (stream : List CompressedPacket) (p : SourcePipeline) : Prop where
  recording : p.recording.Faithful capture recordingLimits stream
  /-- The recording is offered the whole stream. -/
  whole : p.recording.offered = stream
  viewer : ∀ path ∈ p.viewer, path.Faithful capture viewerLimits stream
  released : ∀ path ∈ p.released, path.Faithful capture viewerLimits stream

end Sentinel.Media
