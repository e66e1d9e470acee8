import Sentinel.Detection.Gate

/-!
# The entrance tracker

`AnonymousEntranceTracker` of `server/app/detection/tracking/entrance.py`, in exact arithmetic over an ordered field. The
length of the line is given with it, by the equation that determines it, and a distance is compared by its square. What the
quality gate and the owner verifier answer is given with the call. A track's key is the next number. The times, the source and
the identifier that a crossing repeats from the call are left out.
-/

namespace Sentinel.Detection.Entrance

open Gate (FrameIdentity)

variable {K : Type*} [Field K] [LinearOrder K]

/-- A point of the frame, in fractions of its sides. -/
structure Point (K : Type*) [Field K] [LinearOrder K] where
  x : K
  y : K
  fraction_x : 0 ≤ x ∧ x ≤ 1
  fraction_y : 0 ≤ y ∧ y ≤ 1

/-- A detected person and their foot point. -/
structure PersonPoint (K : Type*) [Field K] [LinearOrder K] where
  candidate : Nat
  point : Point K

/-- The bounds of the tracker. -/
structure TrackingPolicy (K : Type*) [Field K] [LinearOrder K] where
  maxTracks : Nat
  maxGapMs : Nat
  maxDistance : K
  tracks : 1 ≤ maxTracks ∧ maxTracks ≤ 256
  gap : 0 < maxGapMs
  distance : 0 < maxDistance ∧ maxDistance ≤ 1

/-- `EntranceLine`; `length` is the hypotenuse of its two sides. -/
structure EntranceLine (K : Type*) [Field K] [LinearOrder K] where
  start : Point K
  stop : Point K
  entryDirection : SignType
  hysteresis : K
  length : K
  proper : start.x ≠ stop.x ∨ start.y ≠ stop.y
  directed : entryDirection ≠ 0
  fraction : 0 ≤ hysteresis ∧ hysteresis ≤ 1
  length_nonneg : 0 ≤ length
  length_sq : length * length = (stop.x - start.x) * (stop.x - start.x) + (stop.y - start.y) * (stop.y - start.y)

namespace EntranceLine

variable (line : EntranceLine K)

def dx : K := line.stop.x - line.start.x

def dy : K := line.stop.y - line.start.y

def distance (point : Point K) : K :=
  (line.dx * (point.y - line.start.y) - line.dy * (point.x - line.start.x)) / line.length

def settledSide (point : Point K) : SignType :=
  let distance := line.distance point
  if |distance| > line.hysteresis then if distance > 0 then 1 else -1 else 0

def intersects (previous current : Point K) : Bool :=
  let before := line.distance previous
  let after := line.distance current
  if before = after ∨ before * after > 0 then false
  else
    let ratio := before / (before - after)
    let x := previous.x + ratio * (current.x - previous.x)
    let y := previous.y + ratio * (current.y - previous.y)
    let projection := ((x - line.start.x) * line.dx + (y - line.start.y) * line.dy) / (line.dx * line.dx + line.dy * line.dy)
    decide (0 ≤ ratio ∧ ratio ≤ 1 ∧ 0 ≤ projection ∧ projection ≤ 1)

end EntranceLine

/-- A person that is followed. -/
structure Track (K : Type*) [Field K] [LinearOrder K] where
  point : Point K
  lastMs : Nat
  sequence : Nat
  side : SignType
  crossed : Bool := false

/-- `_advance`: the direction of the crossing, or zero, and the track. -/
def Track.advance (line : EntranceLine K) (track : Track K) (point : Point K) (observedMs sequence : Nat) :
    SignType × Track K :=
  let side := line.settledSide point
  let next := { track with point := point, lastMs := observedMs, sequence := sequence }
  if sequence ≠ track.sequence + 1 then (0, { next with side := side, crossed := false })
  else
    let before := line.distance track.point
    let after := line.distance point
    let crossed :=
      if before ≠ after ∧ before * after ≤ 0 ∧ after ≠ 0 then
        line.intersects track.point point && decide ((if after > 0 then 1 else -1) ≠ track.side)
      else track.crossed
    if side ≠ 0 ∧ track.side ≠ 0 ∧ side ≠ track.side then
      (if crossed then side else 0, { next with side := side, crossed := false })
    else if side ≠ 0 ∧ side = track.side then (0, { next with crossed := false })
    else if side ≠ 0 ∧ track.side = 0 then (0, { next with side := side, crossed := false })
    else (0, { next with crossed := crossed })

/-- Who crosses, and which way. -/
inductive CrossingKind
  | ownerEntry
  | ownerExit
  | anonymousEntry
  | anonymousExit
  deriving DecidableEq, Repr

/-- A reported crossing of the line. -/
structure Crossing where
  kind : CrossingKind
  confidence : Option ℚ
  clockTrusted : Bool
  confirmed : Bool
  deriving DecidableEq, Repr

/-- What an update made of one point: the track it was assigned to, and the direction of the crossing that it settled. -/
structure Move (K : Type*) [Field K] [LinearOrder K] where
  candidate : Nat
  point : Point K
  key : Nat
  direction : SignType

/-- One call of `update`. `authorized` says that the gate let the decision through for the frame, and `owner` is the
confidence of the one current match of a candidate. -/
structure Observed (K : Type*) [Field K] [LinearOrder K] where
  frame : FrameIdentity
  points : List (PersonPoint K)
  authorized : Bool
  observedMs : Nat
  clockTrusted : Bool
  owner : Nat → Option ℚ

/-- The errors of `update`. -/
inductive TrackError
  | invalidTrackObservation
  | trackingResourceLimit
  deriving DecidableEq, Repr

/-- The point that the move was made of. -/
def Move.personPoint (m : Move K) : PersonPoint K := ⟨m.candidate, m.point⟩

/-- The crossing that `update` appends for a point. -/
def Move.crossing (line : EntranceLine K) (o : Observed K) (m : Move K) : Option Crossing :=
  if m.direction = 0 then none
  else
    let owner := o.owner m.candidate
    let entry := m.direction = line.entryDirection
    let kind :=
      if owner.isSome then if entry then CrossingKind.ownerEntry else .ownerExit
      else if entry then .anonymousEntry else .anonymousExit
    some ⟨kind, owner, o.clockTrusted, owner.isSome && o.clockTrusted⟩

/-- `TrackUpdate`, with the moves that its assignments and crossings are read from. -/
structure TrackUpdate where
  assignments : List (Nat × Nat)
  crossings : List Crossing
  quality : Quality
  deriving DecidableEq, Repr

/-- The state of `AnonymousEntranceTracker`. -/
structure Tracker (K : Type*) [Field K] [LinearOrder K] where
  tracks : List (Nat × Track K) := []
  streamId : Option Nat := none
  sequence : Int := -1
  lastMs : Option Nat := none
  minted : Nat := 0

def Tracker.close (t : Tracker K) : Tracker K := { t with tracks := [], streamId := none, sequence := -1, lastMs := none }

/-- A frame of another stream closes the tracker. -/
def Tracker.enter (t : Tracker K) (streamId : Nat) : Tracker K :=
  if t.streamId ≠ some streamId then { t.close with streamId := some streamId } else t

/-- The tracks that are not too old. -/
def Tracker.live (policy : TrackingPolicy K) (observedMs : Nat) (t : Tracker K) : List (Nat × Track K) :=
  t.tracks.filter fun x => decide (observedMs - x.2.lastMs ≤ policy.maxGapMs)

/-- The point is within the distance that associates it with the track. -/
def Track.near (policy : TrackingPolicy K) (track : Track K) (p : PersonPoint K) : Bool :=
  decide ((p.point.x - track.point.x) * (p.point.x - track.point.x) + (p.point.y - track.point.y) * (p.point.y - track.point.y) ≤
    policy.maxDistance * policy.maxDistance)

/-- The one track near the point, if no other point is near that track. -/
def associated (policy : TrackingPolicy K) (tracks : List (Nat × Track K)) (points : List (PersonPoint K))
    (p : PersonPoint K) : Option (Nat × Track K) :=
  match tracks.filter fun t => t.2.near policy p with
  | [t] => if (points.filter (t.2.near policy)).length = 1 then some t else none
  | _ => none

/-- The loop over the points: the move of each, and its track. -/
def follow (line : EntranceLine K) (policy : TrackingPolicy K) (tracks : List (Nat × Track K)) (o : Observed K) :
    Nat → List (PersonPoint K) → List (Move K × Track K)
  | _, [] => []
  | minted, p :: points =>
    match associated policy tracks o.points p with
    | none =>
      (⟨p.candidate, p.point, minted, 0⟩, ⟨p.point, o.observedMs, o.frame.sequence, line.settledSide p.point, false⟩) ::
        follow line policy tracks o (minted + 1) points
    | some (key, track) =>
      let (direction, track) := track.advance line p.point o.observedMs o.frame.sequence
      (⟨p.candidate, p.point, key, direction⟩, track) :: follow line policy tracks o minted points

/-- `update`. -/
def update (sourceId : Nat) (line : EntranceLine K) (policy : TrackingPolicy K) (o : Observed K) (t : Tracker K) :
    Except TrackError TrackUpdate × Tracker K :=
  if o.frame.sourceId ≠ sourceId ∨ ¬(o.points.map PersonPoint.candidate).Nodup then (.error .invalidTrackObservation, t)
  else if o.points.length > policy.maxTracks then (.error .trackingResourceLimit, t.close)
  else if ¬o.authorized then (.ok ⟨[], [], .unknown⟩, t.close)
  else
    let t := t.enter o.frame.streamId
    if (o.frame.sequence : Int) ≤ t.sequence ∨ t.lastMs.any fun last => o.observedMs < last then
      (.ok ⟨[], [], .unknown⟩, t.close)
    else
      let moved := follow line policy (t.live policy o.observedMs) o t.minted o.points
      (.ok ⟨moved.map fun m => (m.1.candidate, m.1.key), moved.filterMap fun m => m.1.crossing line o, .sufficient⟩,
        { t with
          sequence := o.frame.sequence, lastMs := some o.observedMs
          tracks := moved.map fun m => (m.1.key, m.2)
          minted := t.minted + o.points.length })

end Sentinel.Detection.Entrance
