import Sentinel.Lib.History
import Sentinel.Ring.Disk

/-!
# Runs of the ring

A run is a sequence of calls of the public methods of `DiskRing`, with what the environment decides
in each. A call that ends the process leaves no ring in memory; the next one has to open the ledger
again. The answers of the injected authority are arguments of the calls.
-/

namespace Sentinel.Ring

open Program

/-- A call of a public method. `owner` and `authorized` are the answers of the authority. -/
inductive Call
  | openRing
  | close
  | configure (owner : Bool) (config : RingConfig) (profiles : List SegmentProfile) (now : Int)
      (trusted : Bool)
  | append (source : UUID) (start stop : Int) (data : List UInt8) (now : Int) (trusted : Bool)
  | observeConnection (authenticated connected unexpected : Bool) (now : Int) (trusted : Bool)
  | preserve (authorized : Bool) (reason : IncidentReason) (start stop now : Int) (trusted : Bool)
  | tick (now : Int) (trusted : Bool)
  | deleteIncident (owner : Bool) (identifier : UUID) (now : Int) (trusted : Bool)
  | incident (identifier : UUID) (now : Int)
  | status (now : Int) (trusted : Bool)

/-- What a call returns. -/
inductive Answer
  | done
  | segment (identifier : UUID)
  | incident (identifier : Option UUID)
  | details (details : IncidentDetails)
  | status (report : StatusReport)

/-- What the environment decides in one call. -/
structure Env where
  turns : List Turn := []
  ids : List UUID := []

/-- The durable state and the open ring, if any. -/
structure Sys where
  ledger : Ledger := {}
  media : Media := {}
  memory : Option Memory := none

/-- The result of a call and its durable changes, the latest first. -/
structure Output where
  result : Except Failure Answer
  log : List Entry

def Output.failure (output : Output) : Option Failure :=
  match output.result with
  | .ok _ => none
  | .error e => some e

variable (s : Settings)

def configure (owner : Bool) (config : RingConfig) (profiles : List SegmentProfile) (now : Int)
    (trusted : Bool) : RingM StatusReport := do
  require (owner = true) (.ring .ownerAuthorizationRequired)
  require (IsInteger now) (.ring .invalidNumericValue)
  require (1 ≤ profiles.length ∧ profiles.length ≤ 4) (.ring .invalidProfileCollection)
  require ((profiles.map SegmentProfile.sourceId).Nodup) (.ring .duplicateSourceIdentity)
  require (∀ profile ∈ profiles, profile.segmentBytes false ≤ s.maxSegmentBytes)
    (.ring .profileExceedsSegmentWriteLimit)
  operation (configureRing s config profiles now trusted)

def append (source : UUID) (start stop : Int) (data : List UInt8) (now : Int) (trusted : Bool) :
    RingM UUID := do
  require (IsInteger start ∧ IsInteger stop ∧ IsInteger now) (.ring .invalidNumericValue)
  operation (appendSegment s source start stop data now trusted)

def observeConnection (authenticated connected unexpected : Bool) (now : Int) (trusted : Bool) :
    RingM (Option UUID) := do
  require (IsInteger now) (.ring .invalidNumericValue)
  operation (observe s authenticated connected unexpected now trusted)

def preserve (authorized : Bool) (reason : IncidentReason) (start stop now : Int) (trusted : Bool) :
    RingM UUID := do
  require (authorized = true) (.ring .authenticatedPreserveRequired)
  require (reason ≠ .mainConnectionLost) (.ring .invalidPreservationReason)
  operation (preserveAt s (clock s now trusted) reason start stop now false)

def program : Call → RingM Answer
  | .openRing => do
    openRing s
    return .done
  | .close => return .done
  | .configure owner config profiles now trusted => do
    let report ← configure s owner config profiles now trusted
    return .status report
  | .append source start stop data now trusted => do
    let identifier ← append s source start stop data now trusted
    return .segment identifier
  | .observeConnection authenticated connected unexpected now trusted => do
    let identifier ← observeConnection s authenticated connected unexpected now trusted
    return .incident identifier
  | .preserve authorized reason start stop now trusted => do
    let identifier ← preserve s authorized reason start stop now trusted
    return .incident (some identifier)
  | .tick now trusted => do
    require (IsInteger now) (.ring .invalidNumericValue)
    let report ← operation (tickRing s now trusted)
    return .status report
  | .deleteIncident owner identifier now trusted => do
    require (owner = true) (.ring .ownerAuthorizationRequired)
    require (IsInteger now) (.ring .invalidNumericValue)
    operation (deleteIncident s identifier now trusted)
    return .done
  | .incident identifier now => do
    require (IsInteger now) (.ring .invalidNumericValue)
    let details ← operation (readIncident identifier now)
    return .details details
  | .status now trusted => do
    require (IsInteger now) (.ring .invalidNumericValue)
    let report ← readStatus s now trusted
    return .status report

def Sys.world (sys : Sys) (memory : Memory) (env : Env) : World :=
  ⟨sys.ledger, sys.media, memory, env.turns, env.ids, []⟩

/-- Run a call in a world: a crash leaves no ring, and so does a failure where `fragile`. -/
def conclude (fragile : Bool) (run : Except Failure Answer × World) : Output × Sys :=
  let lost : Bool := match run.1 with
    | .ok _ => false
    | .error e => fragile || decide (e = .crash)
  (⟨run.1, run.2.log⟩, ⟨run.2.ledger, run.2.media, if lost then none else some run.2.memory⟩)

/-- One call. The constructor closes the ledger again where it fails; a closed ring refuses every
call, and the ledger has one owner at a time. -/
def step (input : Call × Env) (sys : Sys) : Output × Sys :=
  match input.1, sys.memory with
  | .openRing, none => conclude true (program s input.1 (sys.world {} input.2))
  | .openRing, some _ => (⟨.error .unavailable, []⟩, sys)
  | .close, _ => (⟨.ok .done, []⟩, { sys with memory := none })
  | _, none => (⟨.error (.ring (.ledger .unavailable)), []⟩, sys)
  | call, some memory => conclude false (program s call (sys.world memory input.2))

def Call.now : Call → Int
  | .openRing | .close => 0
  | .configure _ _ _ now _ | .append _ _ _ _ now _ | .observeConnection _ _ _ now _
  | .preserve _ _ _ _ now _ | .tick now _ | .deleteIncident _ _ now _ | .incident _ now
  | .status now _ => now

/-- Whether the caller marks its time as trusted. -/
def Call.clockTrusted : Call → Bool
  | .openRing | .close | .incident _ _ => false
  | .configure _ _ _ _ trusted | .append _ _ _ _ _ trusted | .observeConnection _ _ _ _ trusted
  | .preserve _ _ _ _ _ trusted | .tick _ trusted | .deleteIncident _ _ _ trusted
  | .status _ trusted => trusted

/-- The effective trust of a call: the caller trusts its time, and it is not behind the recorded
one. -/
def Call.effective (call : Call) (l : Ledger) : Bool := clockRead l call.now call.clockTrusted

/-! ## A small ring

One source whose segments take ten minutes each, for runs that can be evaluated. -/

/-- `n` seconds. -/
def seconds (n : Nat) : Int := (n * second : Nat)

def roomy : Settings where
  safetyReserveBytes := 0
  maxSegmentBytes := 1000000
  allocationUnit := 512
  ledgerMaximumBytes := 4096 * 1000
  ledgerHeadroom := 0
  sha256 := List.length
  unit_pos := by decide

/-- A source with a cadence of 600 seconds and one byte a second. -/
def camera : SegmentProfile where
  sourceId := 7
  maximumBitrate := 8
  expectedBitrate := 8
  segmentDurationUs := 600 * second
  overheadBytes := 0
  bitrates := by decide
  cadence := by decide
  overhead_le := by decide
  bytes_le := by decide

/-- A ring that keeps `n` seconds, and at least the pre-loss window. -/
def keeping (n : Nat) (h : 600 ≤ n ∧ n ≤ 100000) : RingConfig :=
  ⟨.duration, n, ⟨by omega, by unfold maxInteger; omega⟩, fun _ => h.1⟩

theorem tenMinutes : 600 ≤ 600 ∧ 600 ≤ 100000 := by decide

/-- The append of the camera's segment that ends at `n` seconds, at that time. -/
def segmentAt (n id : Nat) (turns : List Turn := []) : Call × Env :=
  (.append 7 (seconds n - seconds 600) (seconds n) [1] (seconds n) true, ⟨turns, [id]⟩)

/-- The history and the last state of calls on an empty ledger. -/
def runFrom (s : Settings) (calls : List (Call × Env)) :
    List (Event Sys (Call × Env) Output) × Sys :=
  perform (step s) { media := { available := 1000000 } } calls

theorem reaches_runFrom (s : Settings) (calls : List (Call × Env)) :
    Reaches (step s) { media := { available := 1000000 } } (runFrom s calls).1 (runFrom s calls).2 :=
  Reaches.perform (step s) { media := { available := 1000000 } } calls

end Sentinel.Ring
