import Sentinel.Lib.History

/-!
# Identity of local cameras

`match_reconnect` and `ReconnectController` of `server/app/cameras/uvc/identity.py`: which connected device a source may
capture from. The calls of one controller are taken one after another. A write of the approval store that a call makes
returns or raises, and the health write or the delivery after a transition may raise; both are answers of the
environment. The checks of `DeviceEvidence.__post_init__`, the outbox and the texts of the errors are left out.
-/

namespace Sentinel.Uvc

/-- The states of a source. -/
inductive CameraState
  | offline
  | degraded
  | online
  | manual
  deriving DecidableEq, Repr

/-- Why a source is in its state. -/
inductive Reason
  | notStarted
  | disabled
  | enabledPendingCapture
  | ownerApprovalRequired
  | ownerApprovedPendingCapture
  | captureProfileUnavailable
  | identityMatched
  | duplicateIdentity
  | identityNotUnique
  | approvedDeviceAbsent
  | deviceDisconnected
  | approvalConflict
  | videoCaptureReady
  | videoCaptureFailed
  | videoCaptureClosed
  | videoFrameStalled
  | captureServiceStopping
  deriving DecidableEq, Repr

/-- `DeviceEvidence`. -/
structure Evidence where
  devicePath : String
  vendor : String
  product : String
  serial : Option String := none
  interface : String := "0"
  byId : List String := []
  topology : Option String := none
  formats : List String := []
  deviceNumber : Option Nat := none
  instanceToken : Option (Nat × Nat × Nat) := none
  deriving DecidableEq, Repr

/-- Vendor, product, serial and interface of a serial-backed identity. -/
abbrev StrongKey := String × String × String × String

namespace Evidence

/-- `strong_key`: only a nonempty serial is a strong identity. -/
def strongKey (d : Evidence) : Option StrongKey :=
  match d.serial with
  | none => none
  | some serial =>
    if serial = "" ∨ d.vendor = "" ∨ d.product = "" then none
    else some (d.vendor, d.product, serial, d.interface)

def modelKey (d : Evidence) : String × String × String := (d.vendor, d.product, d.interface)

/-- `live_instance_key`, as evidence with the metadata that a rescan may refresh left out. -/
def liveInstanceKey (d : Evidence) : Evidence := { d with byId := [], formats := [] }

/-- The two name the same connected device node. -/
def SameLiveInstance (d e : Evidence) : Prop := d.liveInstanceKey = e.liveInstanceKey

instance (d e : Evidence) : Decidable (SameLiveInstance d e) :=
  inferInstanceAs (Decidable (d.liveInstanceKey = e.liveInstanceKey))

end Evidence

/-- The devices of a scan that are the live instance of a device. -/
def instances (devices : List Evidence) (d : Evidence) : List Evidence :=
  devices.filter fun e => e.SameLiveInstance d

/-- `current_live_instance`: the only entry of the scan for the live instance of a device. -/
def currentLiveInstance (devices : List Evidence) (d : Evidence) : Option Evidence :=
  match instances devices d with
  | [e] => some e
  | _ => none

/-- The devices of a scan that have the strong key of a device. -/
def peers (devices : List Evidence) (d : Evidence) : List Evidence :=
  devices.filter fun e => e.strongKey = d.strongKey

/-- `IdentityDecision`. -/
structure Decision where
  state : CameraState
  reason : Reason
  device : Option Evidence := none

def matchReconnect (approved : Evidence) (devices : List Evidence) (serialAmbiguous : Bool) : Decision :=
  if approved.strongKey ≠ none ∧ ¬serialAmbiguous then
    match peers devices approved with
    | [d] => ⟨.degraded, .identityMatched, some d⟩
    | _ :: _ :: _ => ⟨.manual, .duplicateIdentity, none⟩
    | [] => ⟨.offline, .approvedDeviceAbsent, none⟩
  else if devices.any fun d =>
      if approved.strongKey ≠ none then d.strongKey = approved.strongKey else d.modelKey = approved.modelKey then
    -- a reused port cannot prove that the old camera returned
    ⟨.manual, .identityNotUnique, none⟩
  else ⟨.offline, .approvedDeviceAbsent, none⟩

/-- `ReconnectController`. -/
structure Controller where
  approved : Evidence
  serialAmbiguous : Bool
  requiresApproval : Bool
  enabled : Bool
  state : CameraState := .offline
  reason : Reason := .notStarted
  bound : Option Evidence := none
  explicitBinding : Bool := false
  /-- The device whose negotiated profile was refused, and whether its binding was explicit. -/
  profileHold : Option (Evidence × Bool) := none
  stored : Bool := true
  sessionToken : Option Nat := none
  finished : Bool := false
  stopping : Bool := false

/-- What `start_session` returns. -/
structure Saved where
  approved : Evidence
  requiresApproval : Bool
  serialAmbiguous : Bool
  sessionToken : Nat
  deriving DecidableEq

/-- `__init__`; it raises for an explicit candidate that is not the approved device. -/
def Controller.init (approved : Evidence) (saved : Option Saved) (enabled : Bool) (explicitCandidate : Option Evidence) :
    Option Controller :=
  let approved := (saved.map Saved.approved).getD approved
  if explicitCandidate.any fun d => d ≠ approved then none
  else some
    { approved := approved
      serialAmbiguous := (saved.map Saved.serialAmbiguous).getD false
      requiresApproval := (saved.map Saved.requiresApproval).getD false
      enabled := enabled
      bound := explicitCandidate
      explicitBinding := explicitCandidate.isSome
      stored := saved.isSome
      sessionToken := saved.map Saved.sessionToken }

/-- A call of the controller. -/
inductive Op
  | reconcile (devices : List Evidence)
  | approve (candidate : Evidence) (devices : List Evidence)
  | disconnected
  | captureReady (candidate : Evidence)
  /-- `lost` for a stall past the reopen bound; `confirm` is what the callback answers under the lock. -/
  | frameStalled (candidate : Evidence) (onlyOnline lost confirm : Bool)
  | captureProfileUnavailable (candidate : Evidence)
  | approvalConflict
  | captureFailed
  | captureClosing
  | captureClosed
  /-- `acquired` if the transition lock was taken in time. -/
  | fenceStopping (acquired : Bool)
  | shutdown
  | supersedeStoppedSession
  | setEnabled (enabled : Bool)

/-- How a call ends. -/
inductive Result
  | refused
  /-- A write of the store, or what follows a transition, raised. -/
  | raised
  | returned (device : Option Evidence)
  deriving DecidableEq

namespace Controller

/-- The in-memory part of `_transition`. -/
def transition (c : Controller) (state : CameraState) (reason : Reason) : Controller :=
  { c with state := state, reason := reason }

/-- A binding to the device is kept: it is explicit, or without a serial, or the only one of the scan with its
serial. -/
def keeps (c : Controller) (devices : List Evidence) (d : Evidence) (explicit : Bool) : Bool :=
  explicit || d.strongKey.isNone || (!c.serialAmbiguous && (peers devices d).length == 1)

/-- The instance that the source is held degraded for. -/
def held (c : Controller) (devices : List Evidence) : Option (Evidence × Bool) :=
  match c.profileHold with
  | none => none
  | some (held, explicit) =>
    match currentLiveInstance devices held with
    | none => none
    | some current => if c.keeps devices held explicit then some (current, explicit) else none

/-- The instance that the live binding is kept for. -/
def live (c : Controller) (devices : List Evidence) : Option Evidence :=
  match c.bound with
  | none => none
  | some bound =>
    match currentLiveInstance devices bound with
    | none => none
    | some current => if c.keeps devices current c.explicitBinding then some current else none

/-- The last part of `reconcile`: match the approved device again. -/
def rematch (c : Controller) (devices : List Evidence) : Decision × Controller :=
  let decision := matchReconnect c.approved devices c.serialAmbiguous
  let c := { c with profileHold := none, bound := decision.device, explicitBinding := false }
  if decision.state = .manual then
    (decision, { c with
      requiresApproval := true
      serialAmbiguous := c.serialAmbiguous || decision.reason == .duplicateIdentity })
  else (decision, c)

/-- The approval of a candidate of the scan is accepted. -/
def acceptsApproval (c : Controller) (candidate : Evidence) (devices : List Evidence) : Bool :=
  !c.finished && c.enabled && decide (devices.count candidate = 1)

/-- The ambiguity of an approved candidate. -/
def approvedAmbiguous (c : Controller) (candidate : Evidence) (devices : List Evidence) : Bool :=
  (c.serialAmbiguous && decide (candidate.strongKey = c.approved.strongKey)) ||
    (candidate.strongKey.isSome && decide (1 < (peers devices candidate).length))

/-- `reconcile` matches the approved device again. -/
def rematches (c : Controller) (devices : List Evidence) : Bool :=
  !c.finished && c.enabled && !c.requiresApproval && (c.held devices).isNone && (c.live devices).isNone

/-- A call that made its transition ends. -/
def ends (fails : Bool) (device : Option Evidence) : Result := if fails then .raised else .returned device

/-- The state is online or degraded. -/
def capturing (c : Controller) : Bool := c.state == .online || c.state == .degraded

/-- `reconcile`; `saved` if the store's write returned. -/
def reconcile (c : Controller) (devices : List Evidence) (saved fails : Bool) : Result × Controller :=
  if c.finished then (.refused, c)
  else if ¬c.enabled then (ends fails none, { c with bound := none }.transition .offline .disabled)
  else if c.requiresApproval then (ends fails none, { c with bound := none }.transition .manual .ownerApprovalRequired)
  else
    match c.held devices with
    | some hold =>
      (ends fails none,
        { c with profileHold := some hold, bound := none }.transition .degraded .captureProfileUnavailable)
    | none =>
      match c.live devices with
      | some current => (.returned (some current), { c with profileHold := none, bound := some current })
      | none =>
        let r := c.rematch devices
        if r.1.state = .manual ∧ c.stored ∧ ¬saved then (.raised, r.2)
        else (ends fails r.1.device, r.2.transition r.1.state r.1.reason)

/-- One call: how it ends, and the controller after it. -/
def call (c : Controller) (op : Op) (saved fails : Bool) : Result × Controller :=
  match op with
  | .reconcile devices => c.reconcile devices saved fails
  | .approve candidate devices =>
    if ¬c.acceptsApproval candidate devices then (.refused, c)
    else if c.stored ∧ ¬saved then (.raised, c)
    else
      (ends fails none,
        { c with
          approved := candidate
          bound := some candidate
          explicitBinding := true
          profileHold := none
          serialAmbiguous := c.approvedAmbiguous candidate devices
          requiresApproval := false }.transition .degraded .ownerApprovedPendingCapture)
  | .disconnected => (ends fails none, { c with bound := none }.transition .offline .deviceDisconnected)
  | .captureReady candidate =>
    if c.stopping ∨ ¬c.enabled ∨ c.requiresApproval ∨ ¬c.bound.any fun b => b.SameLiveInstance candidate then
      (.refused, c)
    else (ends fails none, c.transition .online .videoCaptureReady)
  | .frameStalled candidate onlyOnline lost confirm =>
    if c.finished ∨ (¬c.bound.any fun b => b.SameLiveInstance candidate) ∨
        ¬(c.state = .online ∨ (c.state = .degraded ∧ ¬onlyOnline)) ∨ ¬confirm then (.returned none, c)
    else if lost then (ends fails none, c.transition .offline .videoCaptureFailed)
    else (ends fails none, c.transition .degraded .videoFrameStalled)
  | .captureProfileUnavailable candidate =>
    match c.bound with
    | none => (.refused, c)
    | some bound =>
      if ¬bound.SameLiveInstance candidate then (.refused, c)
      else
        (ends fails none,
          { c with profileHold := some (bound, c.explicitBinding), bound := none, explicitBinding := false }.transition
            .degraded .captureProfileUnavailable)
  | .approvalConflict =>
    if c.finished then (.refused, c)
    else
      (ends fails none,
        { c with bound := none, explicitBinding := false, profileHold := none }.transition .manual .approvalConflict)
  | .captureFailed => (ends fails none, { c with bound := none }.transition .offline .videoCaptureFailed)
  | .captureClosing | .captureClosed =>
    let c := { c with bound := none }
    (ends fails none, if c.capturing then c.transition .offline .videoCaptureClosed else c)
  | .fenceStopping acquired =>
    let c := { c with stopping := true }
    (ends fails none,
      if acquired && !c.finished && c.capturing then c.transition .offline .captureServiceStopping else c)
  | .shutdown =>
    if c.bound.isSome then (.refused, c)
    else if c.stored ∧ c.sessionToken.isSome ∧ ¬saved then (.raised, c)
    else (.returned none, { c with sessionToken := if c.stored then none else c.sessionToken, finished := true })
  | .supersedeStoppedSession =>
    if c.bound.isSome then (.refused, c)
    else (.returned none, { c with sessionToken := none, finished := true })
  | .setEnabled enabled =>
    if c.finished then (.refused, c)
    else
      (ends fails none,
        { c with enabled := enabled, bound := none, profileHold := none }.transition .offline
          (if enabled then .enabledPendingCapture else .disabled))

end Controller

/-! ## Runs of one controller -/

/-- A call, with the answers of the environment. -/
structure Call where
  op : Op
  saved : Bool := true
  fails : Bool := false

def step (i : Call) (c : Controller) : Result × Controller := c.call i.op i.saved i.fails

/-- A step of a run. -/
abbrev CallEvent := Event Controller Call Result

/-- The Owner's approval of the candidate was stored. -/
def Approves (e : CallEvent) (candidate : Evidence) : Prop :=
  ∃ devices, e.input.op = .approve candidate devices ∧ e.output ≠ .refused ∧ (e.before.stored = true → e.input.saved = true)

/-- The operation drops a binding to the live instance of the candidate. -/
def Op.Drops (candidate : Evidence) : Op → Prop
  | .disconnected | .captureFailed | .captureClosing | .captureClosed | .setEnabled _ | .approvalConflict
  | .captureProfileUnavailable _ => True
  | .reconcile devices => (instances devices candidate).length ≠ 1
  | _ => False

/-- The call, if it was not refused, drops a binding to the live instance of the candidate. -/
def Drops (e : CallEvent) (candidate : Evidence) : Prop := e.output ≠ .refused ∧ e.input.op.Drops candidate

/-- The candidate was approved, or handed over at the start, and the binding was not dropped since. -/
def Standing (handoff : Option Evidence) (h : List CallEvent) (candidate : Evidence) : Prop :=
  (∃ since A earlier, h = since ++ A :: earlier ∧ Approves A candidate ∧ ∀ e ∈ since, ¬Drops e candidate) ∨
    (handoff = some candidate ∧ ∀ e ∈ h, ¬Drops e candidate)

end Sentinel.Uvc
