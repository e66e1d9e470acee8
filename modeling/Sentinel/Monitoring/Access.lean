import Sentinel.Lib.History

/-!
# The access fault monitor

`AccessFaultMonitor` of `server/app/monitoring/access.py`, without the calls that restore it after a restart. A `drain` is given
the health that `_polled` reads, the clock, and for each call of `record` whether the service accepts it. The audit log of
findings is beside the monitor: a finding is its number in the log, and the newest one is what `_finding_event_id` of
`server/app/monitoring/runtime.py` names a notification after. The time that is passed on with a notification is left out.
-/

namespace Sentinel.Monitoring.Access

/-- A reason code of a fault, by its place in `Reason`. -/
abbrev Reason := Nat

/-- Whether human access works. -/
inductive Health
  | healthy
  | fault
  deriving DecidableEq, Repr

/-- The notifications of the monitor. -/
inductive Kind
  | humanAccessFault
  | humanAccessRecovered
  | credentialFinding
  deriving DecidableEq, Repr

/-- An event ID is named after a finding of the audit log, or by the sequence of the process. -/
inductive EventId
  | cursor (finding : Nat)
  | process (sequence : Nat) (kind : Kind)
  deriving DecidableEq, Repr

def hourSeconds : ℚ := 3600

def maxCount : Nat := 2 ^ 31

/-- The hourly budgets and the hold of a finding. -/
structure Settings where
  accessBudget : Nat
  findingBudget : Nat
  findingHold : ℚ
  valid : 0 < accessBudget ∧ accessBudget ≤ 1024 ∧ 0 < findingBudget ∧ findingBudget ≤ 1024 ∧ 0 < findingHold

/-- Accepted notifications of the rolling hour, the oldest first. -/
abbrev Window := List (ℚ × EventId)

/-- The state of `AccessFaultMonitor` and the audit log beside it. -/
structure Monitor where
  latched : Bool := false
  latchedReasons : Finset Reason := ∅
  findingArrivals : Nat := 0
  sequence : Nat := 0
  current : Health := .healthy
  notified : Health := .healthy
  episodeReasons : Finset Reason := ∅
  newReasons : Bool := false
  unreportedFault : Bool := false
  sent : Window := []
  /-- The event ID of a notification that the service refused, by kind. -/
  attempts : Kind → Option EventId := fun _ => none
  findingsPending : Nat := 0
  findingSent : Window := []
  findingsBatched : Bool := false
  lastCursor : Option EventId := none
  findingSeenAt : Option ℚ := none
  committed : Nat := 0
  /-- The calls of `credential_finding`. -/
  counted : Nat := 0

/-- `_window_open`, and the window without its expired entries; no time is one that is not finite. -/
def windowOpen (sent : Window) (budget : Nat) : Option ℚ → Bool × Window
  | none => (true, sent)
  | some now =>
    let sent := sent.dropWhile fun entry => ¬(entry.1 ≤ now ∧ now < entry.1 + hourSeconds)
    (decide (sent.length < budget), sent)

def push (sent : Window) (now : Option ℚ) (event : EventId) : Window := sent ++ (now.map fun now => (now, event)).toList

namespace Monitor

/-- `_notify`: the event ID if the service accepts. -/
def notify (m : Monitor) (kind : Kind) (event : Option EventId) (accepts : Bool) : Option EventId × Monitor :=
  let fresh := EventId.process (m.sequence + 1) kind
  let (attempt, m) :=
    match m.attempts kind, event with
    | none, none => (fresh, { m with sequence := m.sequence + 1 })
    | none, some event => (event, m)
    | some stored, none => (stored, m)
    -- another name replaces the refused one
    | some _, some event => (event, m)
  if accepts then (some attempt, { m with attempts := Function.update m.attempts kind none })
  else (none, { m with attempts := Function.update m.attempts kind (some attempt) })

/-- The access notification of a kind, if the budget allows it: the monitor, and whether it was accepted. -/
def sendAccess (settings : Settings) (m : Monitor) (kind : Kind) (now : Option ℚ) (accepts : Bool) : Bool × Monitor :=
  let (available, sent) := windowOpen m.sent settings.accessBudget now
  let m := { m with sent := sent }
  if available then
    match m.notify kind none accepts with
    | (none, m) => (false, m)
    | (some event, m) => (true, { m with sent := push m.sent now event })
  else (false, m)

/-- `_access_notifications`, and what was accepted. -/
def accessNotifications (settings : Settings) (m : Monitor) (now : Option ℚ) (accepts : Bool) : Option Kind × Monitor :=
  if m.unreportedFault ∧ m.notified ≠ .fault then
    match m.sendAccess settings .humanAccessFault now accepts with
    | (true, m) => (some .humanAccessFault, { m with notified := .fault, unreportedFault := false, newReasons := false })
    | (false, m) => (none, m)
  else if m.current = .fault ∧ m.newReasons then
    match m.sendAccess settings .humanAccessFault now accepts with
    | (true, m) => (some .humanAccessFault, { m with newReasons := false })
    | (false, m) => (none, m)
  else if m.current = .healthy ∧ m.notified = .fault then
    match m.sendAccess settings .humanAccessRecovered now accepts with
    | (true, m) => (some .humanAccessRecovered, { m with notified := .healthy })
    | (false, m) => (none, m)
  else (none, m)

end Monitor

/-- What happens at one round of the loop over findings: how many findings are committed before the audit log is read,
whether the reader answers, and whether the service accepts. -/
structure Round where
  commits : Nat := 0
  answers : Bool := true
  accepts : Bool := true
  deriving DecidableEq, Repr

/-- An accepted notification of findings, and how many it covers. -/
structure Note where
  event : EventId
  covers : Nat
  deriving DecidableEq, Repr

namespace Monitor

/-- The name that a round gives: that of the newest finding for the last notification of a drain, unless it was used. -/
def roundEvent (m : Monitor) (newest : Bool) (round : Round) : Option EventId × Monitor :=
  let m := { m with committed := m.committed + round.commits }
  let event := if newest && round.answers && m.committed ≠ 0 then some (EventId.cursor m.committed) else none
  (if event = m.lastCursor then none else event, m)

/-- An accepted notification covers one pending finding, or the batch. -/
def covered (m : Monitor) (event : Option EventId) (accepted : EventId) (now : Option ℚ) : Monitor :=
  let m := { m with lastCursor := event.or m.lastCursor, findingSent := push m.findingSent now accepted }
  if m.findingsBatched then { m with findingsPending := 0, findingsBatched := false }
  else { m with findingsPending := m.findingsPending - 1 }

/-- One round of the loop of `_finding_notifications`, with findings pending: the accepted event ID, and whether it is that of
a batch. -/
def findingRound (settings : Settings) (now : Option ℚ) (round : Round) (m : Monitor) : Option (EventId × Bool) × Monitor :=
  let (available, sent) := windowOpen m.findingSent settings.findingBudget now
  let m := { m with findingSent := sent }
  if available then
    let batch := m.findingsBatched
    let (event, m) := m.roundEvent (batch || m.findingsPending == 1) round
    match m.notify .credentialFinding event round.accepts with
    | (none, m) => (none, m)
    | (some accepted, m) => (some (accepted, batch), m.covered event accepted now)
  else (none, { m with findingsBatched := true })

/-- `_finding_notifications`: the loop, with as many rounds as there are pending findings. -/
def findingLoop (settings : Settings) (now : Option ℚ) (rounds : Nat → Round) : Nat → Nat → Monitor → List Note × Monitor
  | 0, _, m => ([], m)
  | fuel + 1, i, m =>
    if m.findingsPending = 0 then ([], m)
    else
      match m.findingRound settings now (rounds i) with
      | (none, m) => ([], m)
      | (some (accepted, batch), m') =>
        let (notes, m'') := findingLoop settings now rounds fuel (i + 1) m'
        (⟨accepted, if batch then m.findingsPending else 1⟩ :: notes, m'')

def findingNotifications (settings : Settings) (m : Monitor) (now : Option ℚ) (rounds : Nat → Round) : List Note × Monitor :=
  findingLoop settings now rounds m.findingsPending 0 m

/-- `_finding_degraded`. -/
def findingDegraded (settings : Settings) (m : Monitor) (now : Option ℚ) : Bool :=
  m.findingsPending ≠ 0 ||
    match m.findingSeenAt, now with
    | none, _ => false
    | some _, none => true
    | some seen, some now => now < seen || now - seen < settings.findingHold

/-- The beginning of `drain`: the latched events and the polled health are applied. -/
def observe (m : Monitor) (polled : Option Health) (now : Option ℚ) : Monitor :=
  let reasons := m.latchedReasons
  let faulty := m.latched || polled == some .fault
  let arrivals := m.findingArrivals
  let m := { m with latched := false, latchedReasons := ∅, findingArrivals := 0 }
  let m :=
    if arrivals ≠ 0 then
      { m with findingsPending := min (m.findingsPending + arrivals) maxCount, findingSeenAt := now.or m.findingSeenAt }
    else m
  if faulty then
    let m :=
      if m.current ≠ .fault then { m with episodeReasons := ∅, newReasons := false }
      else if (reasons \ m.episodeReasons).Nonempty then { m with newReasons := true }
      else m
    { m with
      episodeReasons := m.episodeReasons ∪ reasons, current := .fault
      unreportedFault := m.unreportedFault || m.notified ≠ .fault }
  else if polled = some .healthy then { m with current := .healthy }
  else m

end Monitor

/-- What happens to the monitor. -/
inductive Call
  | emit (reasons : Finset Reason)
  | compositionFailed
  | commit
  | credentialFinding
  | drain (polled : Option Health) (now : Option ℚ) (accepts : Bool) (rounds : Nat → Round)

/-- What a drain sent and returned. -/
structure Drained where
  access : Option Kind
  notes : List Note
  humanAccessDegraded : Bool
  credentialFindingDegraded : Bool

def Monitor.step (settings : Settings) (call : Call) (m : Monitor) : Option Drained × Monitor :=
  match call with
  | .emit reasons => (none, { m with latched := true, latchedReasons := m.latchedReasons ∪ reasons })
  | .compositionFailed => (none, { m with latched := true })
  | .commit => (none, { m with committed := m.committed + 1 })
  | .credentialFinding =>
    (none, { m with findingArrivals := min (m.findingArrivals + 1) maxCount, counted := m.counted + 1 })
  | .drain polled now accepts rounds =>
    let m := m.observe polled now
    let (access, m) := m.accessNotifications settings now accepts
    let (notes, m) := m.findingNotifications settings now rounds
    (some ⟨access, notes, m.current = .fault, m.findingDegraded settings now⟩, m)

/-- A call in a run. -/
abbrev AccessEvent := Event Monitor Call (Option Drained)

end Sentinel.Monitoring.Access
