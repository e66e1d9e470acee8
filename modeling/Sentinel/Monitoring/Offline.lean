import Sentinel.Lib.History
import Sentinel.Lib.Table

/-!
# The cap of the camera notifications

`CameraOfflineMonitor` of `server/app/monitoring/cameras.py`, from the alerts that are due in a drain to what is submitted.
The episodes and ratio periods of the sources, which decide what is due and in which order, are given with the drain, with
what the callbacks answer; the rows that are sent again are those of the monitor. Clocks are finite. The time of day that is
passed on with a notification, and the counters, are left out.
-/

namespace Sentinel.Monitoring.Offline

/-- The ID of a stored row, or one of this process by its sequence. -/
inductive EventId
  | row (id : UUID)
  | process (sequence : Nat)
  deriving DecidableEq, Repr

def hourSeconds : ℚ := 3600

/-- The cap of an hour. -/
structure Settings where
  hourlyLimit : Nat
  valid : 1 ≤ hourlyLimit ∧ hourlyLimit ≤ 60

/-- A slot of the rolling hour. -/
abbrev Slot := ℚ × EventId

/-- A row that an earlier process left pending, with its stored time. -/
structure Resend where
  eventId : EventId
  storedAt : ℚ
  deriving DecidableEq

/-- The state of `CameraOfflineMonitor` that the cap depends on. -/
structure Monitor where
  /-- The slots of the rolling hour, the oldest first. -/
  sent : List Slot := []
  used : Finset EventId := ∅
  resend : List Resend := []
  restored : Finset EventId := ∅
  resent : Finset EventId := ∅
  sequence : Nat := 0
  stopped : Bool := false

/-- What is stored of an earlier notification: nothing, a final row, or a pending one. -/
inductive Known
  | no
  | final
  | pending
  deriving DecidableEq, Repr

/-- An episode or a ratio alert that is due, with what the callbacks answer about it. -/
structure Alert where
  skipped : Bool := false
  flap : Bool := false
  /-- The submission that the service could not take. -/
  attempt : Option EventId := none
  initial : Bool := false
  ongoing : Bool := true
  name : Option EventId := none
  /-- The ratio alert that an earlier process stored. -/
  found : Option (EventId × Known) := none
  durableId : Option EventId := none
  flappingId : Option (EventId × Known) := none
  known : EventId → Known := fun _ => .no

/-- What the notification service answers: `can_accept` refuses, `record` refuses, or the submission is accepted. -/
inductive Answer
  | full
  | failed
  | accepted
  deriving DecidableEq, Repr

/-- A submission; `retry` if it was submitted or stored before. -/
structure Submission where
  eventId : EventId
  retry : Bool
  accepted : Bool
  deriving DecidableEq, Repr

/-- The window without the slots that expired, or that a backwards clock left in its future. -/
def expire (now : ℚ) (sent : List Slot) : List Slot := sent.dropWhile fun slot => ¬(slot.1 ≤ now ∧ now < slot.1 + hourSeconds)

namespace Monitor

variable (m : Monitor)

def isRestored (eventId : EventId) : Bool := eventId ∈ m.restored || eventId ∈ m.resent

def usable (eventId : EventId) : Bool := eventId ∉ m.used || m.isRestored eventId

/-- `_counted`. -/
def counted (eventId : EventId) : Bool := m.sent.any fun slot => slot.2 = eventId

/-- `_window_open`. -/
def windowOpen (settings : Settings) (now : ℚ) : Bool × Monitor :=
  let sent := expire now m.sent
  (decide (sent.length < settings.hourlyLimit), { m with sent })

/-- The name of an alert without an attempt, and what is stored under it. -/
def named (a : Alert) : Option EventId × Known :=
  if a.flap then
    match a.found.or (a.flappingId.filter fun answer => m.usable answer.1) with
    | none => (none, .no)
    | some (eventId, earlier) => (some eventId, if m.isRestored eventId then .final else earlier)
  else
    let live := if a.ongoing then a.durableId.filter m.usable else none
    let eventId :=
      match a.name with
      | none => live
      | some name =>
        if live ≠ some name && m.usable name && (m.isRestored name || live.isNone && a.known name ≠ .no) then some name
        else live
    match eventId with
    | none => (none, .no)
    | some eventId =>
      if m.isRestored eventId then
        -- a later outage that reuses the name of a restored row is a new one
        if a.initial then (some eventId, .final) else (none, .no)
      else (some eventId, a.known eventId)

/-- The gate of the hour and the submission. -/
def submit (settings : Settings) (now : ℚ) (eventId : Option EventId) (retry : Bool) (answer : Answer) :
    Option Submission × Monitor :=
  let (available, m) := m.windowOpen settings now
  if !available || retry && eventId.any m.counted then (none, m)
  else
    let (eventId, m) :=
      match eventId with
      | some eventId => (eventId, m)
      | none => (.process (m.sequence + 1), { m with sequence := m.sequence + 1 })
    match answer with
    | .full => (none, m)
    | .failed => (some ⟨eventId, retry, false⟩, m)
    | .accepted =>
      (some ⟨eventId, retry, true⟩, { m with used := insert eventId m.used, sent := m.sent ++ [(now, eventId)] })

/-- The loop of `drain` for an episode or a ratio alert. -/
def drainAlert (settings : Settings) (now : ℚ) (a : Alert) (answer : Answer) : Option Submission × Monitor :=
  if a.skipped then (none, m)
  else
    match a.attempt with
    | some eventId => m.submit settings now (some eventId) true answer
    | none =>
      match m.named a with
      | (some eventId, .final) => (none, { m with used := insert eventId m.used })
      | (eventId, earlier) => m.submit settings now eventId (earlier == .pending) answer

/-- The loop of `drain` for a row that is sent again. -/
def drainResend (settings : Settings) (now : ℚ) (r : Resend) (answer : Answer) : Option Submission × Monitor :=
  match m.submit settings now (some r.eventId) true answer with
  | (some ⟨eventId, retry, true⟩, m) =>
    (some ⟨eventId, retry, true⟩,
      { m with
        resend := m.resend.erase r, restored := m.restored.erase r.eventId, resent := insert r.eventId m.resent })
  | (submission, m) => (submission, m)

/-- One round of the loop. -/
def drainItem (settings : Settings) (now : ℚ) (item : Alert ⊕ Resend) (answer : Answer) : Option Submission × Monitor :=
  match item with
  | .inl a => m.drainAlert settings now a answer
  | .inr r => m.drainResend settings now r answer

/-- The loop of `drain`; the service answers by the number of the round. -/
def drainLoop (settings : Settings) (now : ℚ) (answers : Nat → Answer) :
    Nat → List (Alert ⊕ Resend) → Monitor → List Submission × Monitor
  | _, [], m => ([], m)
  | i, item :: items, m =>
    let (submission, m) := m.drainItem settings now item (answers i)
    let (submissions, m) := drainLoop settings now answers (i + 1) items m
    (submission.toList ++ submissions, m)

/-- `drain`: the rows to send again come last, by their stored time. -/
def drain (settings : Settings) (now : ℚ) (due : List Alert) (answers : Nat → Answer) : List Submission × Monitor :=
  if m.stopped then ([], m)
  else
    let rows := m.resend.insertionSort fun a b => a.storedAt ≤ b.storedAt
    drainLoop settings now answers 0 (due.map .inl ++ rows.map .inr) m

/-- `restore_window`, and the slots that it adds. -/
def restoreWindow (settings : Settings) (now : ℚ) (rows : List (EventId × ℚ)) : List Slot × Monitor :=
  if settings.hourlyLimit < rows.length then ([], m)
  else
    let fresh := (rows.filter fun row => 0 ≤ row.2 && row.2 < hourSeconds && !m.counted row.1).map fun row =>
      (now - row.2, row.1)
    let merged := (m.sent ++ fresh).insertionSort fun a b => a.1 ≤ b.1
    (fresh, { m with sent := merged.drop (merged.length - settings.hourlyLimit) })

/-- `restore_pending`. -/
def restorePending (settings : Settings) (rows : List Resend) : Monitor :=
  if settings.hourlyLimit < rows.length then m
  else
    rows.foldl (fun m row =>
      if row.eventId ∈ m.used || m.isRestored row.eventId then m
      else { m with restored := insert row.eventId m.restored, resend := m.resend ++ [row] }) m

/-- `name_initial`, for the names of initial episodes that were notified already: their rows are not sent again. -/
def nameInitial (names : List EventId) : Monitor :=
  names.foldl (fun m name =>
    if name ∈ m.restored then
      { m with
        resend := m.resend.filter fun row => row.eventId ≠ name
        restored := m.restored.erase name
        used := insert name m.used }
    else m) m

end Monitor

/-- The calls of the monitor. -/
inductive Call
  | restoreWindow (now : ℚ) (rows : List (EventId × ℚ))
  | restorePending (rows : List Resend)
  | nameInitial (names : List EventId)
  | drain (now : ℚ) (due : List Alert) (answers : Nat → Answer)
  | stop

/-- What a call did: the slots it restored and what it submitted. -/
inductive Act
  | quiet
  | restored (slots : List Slot)
  | drained (now : ℚ) (submissions : List Submission)

def step (settings : Settings) (call : Call) (m : Monitor) : Act × Monitor :=
  match call with
  | .restoreWindow now rows =>
    let (slots, m) := m.restoreWindow settings now rows
    (.restored slots, m)
  | .restorePending rows => (.quiet, m.restorePending settings rows)
  | .nameInitial names => (.quiet, m.nameInitial names)
  | .drain now due answers =>
    let (submissions, m) := m.drain settings now due answers
    (.drained now submissions, m)
  | .stop => (.quiet, { m with stopped := true })

/-- A call in a run. -/
abbrev OfflineEvent := Event Monitor Call Act

/-! ## What a run restored and submitted -/

/-- A restored slot or a submission. -/
inductive Entry
  | restored (slot : Slot)
  | submitted (now : ℚ) (submission : Submission)
  deriving DecidableEq

/-- The entries of a call, the latest first. -/
def Act.entries : Act → List Entry
  | .quiet => []
  | .restored slots => (slots.map .restored).reverse
  | .drained now submissions => (submissions.map (.submitted now)).reverse

/-- The entries of a run, the latest first. -/
def entries (h : List OfflineEvent) : List Entry := h.flatMap fun e => e.output.entries

/-- The slot that an entry takes. -/
def Entry.slot? : Entry → Option Slot
  | .restored slot => some slot
  | .submitted now submission => if submission.accepted then some (now, submission.eventId) else none

/-- The slots that were taken, the latest first. -/
def slots (l : List Entry) : List Slot := l.filterMap Entry.slot?

end Sentinel.Monitoring.Offline
