import Sentinel.Lib.Table

/-!
# Presence: observations

What the notification service takes from the presence service of `server/app/presence/service.py`: the observations, the
answers of an action and the ends of a transaction. Times are microseconds.
-/

namespace Sentinel.Presence

/-- Microseconds since the Unix epoch, or a length of time. -/
abbrev Time := Int

/-- `Kind`. -/
inductive Kind
  | person
  | motion
  | ownerEntry
  | ownerExit
  | anonymousEntry
  | anonymousExit
  | serverMovement
  | cameraTamper
  | cameraHealth
  | entranceGate
  | nodeHealth
  | recording
  | storage
  | presence
  | configuration
  deriving DecidableEq, Repr

/-- What the presence engine says of the Owner. -/
inductive PresenceState
  | present
  | probablyPresent
  | absent
  | unknown
  deriving DecidableEq, Repr

/-- Whether an observation can be relied on. -/
inductive Quality
  | sufficient
  | insufficient
  | unknown
  deriving DecidableEq, Repr

/-- What a source observed. -/
inductive Value
  | observed
  | notObserved
  | unknown
  | online
  | offline
  | degraded
  | manualInterventionRequired
  | revoked
  | ready
  | failed
  | created
  | deleted
  | changed
  deriving DecidableEq, Repr

/-- `Observation`. Two payloads are equal exactly when these fields are. -/
structure Observation where
  kind : Kind
  occurredAt : Time
  receivedAt : Time
  value : Value := .observed
  sourceId : Option UUID := none
  nodeId : Option UUID := none
  confidence : Option ℚ := none
  quality : Quality := .unknown
  clockTrusted : Bool := false
  uncertainty : Nat := 0
  confirmed : Bool := false
  identifier : UUID
  presenceState : Option PresenceState := none
  deriving DecidableEq

/-- What became of an action that was asked for. -/
inductive ActionResult
  | delivered
  | queued
  | failed
  | unavailable
  | uncertain
  | disabled
  deriving DecidableEq, Repr

/-- How a transaction ends, where its body does not raise. -/
inductive Fate
  | returns
  /-- It raises and is rolled back, or was not admitted. -/
  | refused
  /-- It commits, and closing the connection or the reservation raises. -/
  | raises
  deriving DecidableEq, Repr

end Sentinel.Presence
