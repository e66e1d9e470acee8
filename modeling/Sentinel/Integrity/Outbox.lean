import Sentinel.Lib.History

/-!
# The integrity outbox

`server/app/integrity/store.py`: `record`, `_promote_overflow` and `deliver` of `IntegrityStore`, over the tables
`integrity_outbox`, `integrity_overflow` and `integrity_status`. A call of `deliver` is taken apart into what the sink
does and the acknowledging transaction that follows; the process may die at every point, and a transaction may fail.
-/

namespace Sentinel.Integrity

/-- The kinds of hardware. -/
inductive Kind
  | cpu
  | memory
  | storage
  | gpu
  deriving DecidableEq, Repr

/-- The tables and the process. -/
inductive State
  | ok
  | changed
  | missing
  | newDevice
  | unverifiable
  deriving DecidableEq, Repr

/-- A finding of the integrity check. -/
structure Finding where
  kind : Kind
  state : State
  reason : String
  deriving DecidableEq, Repr

namespace Outbox

/-- `max_pending_events`. -/
structure Policy where
  maxPending : Nat
  positive : 1 ≤ maxPending

def kindText : Kind → String
  | .cpu => "CPU"
  | .memory => "MEMORY"
  | .storage => "STORAGE"
  | .gpu => "GPU"

def stateText : State → String
  | .ok => "OK"
  | .changed => "CHANGED"
  | .missing => "MISSING"
  | .newDevice => "NEW_DEVICE"
  | .unverifiable => "UNVERIFIABLE"

def immediate (finding : Finding) : Bool :=
  finding.state = .changed ∨ finding.state = .missing ∨ finding.kind = .storage ∧ finding.state = .unverifiable

/-- A row of `integrity_outbox`; delivered rows are deleted. -/
structure Row where
  id : Nat
  time : String
  immediate : Bool
  findings : List Finding
  deriving DecidableEq

/-- A row of `integrity_overflow`. -/
structure Slot where
  kind : Kind
  state : State
  time : String
  deriving DecidableEq

/-- The row of `integrity_status`. -/
structure Status where
  time : String
  findings : List Finding
  deliveryBlocked : Bool
  deriving DecidableEq

/-- The tables; `nextId` is the counter of the automatic identifiers, which are never used again. -/
structure Tables where
  rows : List Row := []
  nextId : Nat := 1
  overflow : List Slot := []
  status : Option Status := none

/-- `ORDER BY at,kind,state`. -/
def Slot.upTo (a b : Slot) : Prop :=
  a.time < b.time ∨ a.time = b.time ∧ (kindText a.kind < kindText b.kind ∨
    a.kind = b.kind ∧ ¬stateText b.state < stateText a.state)

instance : DecidableRel Slot.upTo := fun a b => by
  unfold Slot.upTo
  infer_instance

namespace Tables

variable (policy : Policy) (t : Tables)

/-- A new row of `integrity_outbox`. -/
def insertRow (time : String) (now : Bool) (findings : List Finding) : Tables :=
  { t with rows := t.rows ++ [⟨t.nextId, time, now, findings⟩], nextId := t.nextId + 1 }

/-- `INSERT INTO integrity_overflow … ON CONFLICT(kind,state) DO NOTHING`. -/
def insertSlot (time : String) (finding : Finding) : Tables :=
  if t.overflow.any fun slot => slot.kind = finding.kind ∧ slot.state = finding.state then t
  else { t with overflow := t.overflow ++ [⟨finding.kind, finding.state, time⟩] }

/-- The transaction of `record`, and whether the outbox was full. -/
def record (findings : List Finding) (time : String) : Bool × Tables :=
  let warning := findings.any fun finding => finding.state ≠ .ok
  let blocked := warning && decide (policy.maxPending ≤ t.rows.length)
  let t₁ := if blocked then (findings.filter fun finding => finding.state ≠ .ok).foldl (insertSlot · time ·) t else t
  let t₂ := { t₁ with status := some ⟨time, findings, !t₁.overflow.isEmpty⟩ }
  (blocked, if warning && !blocked then t₂.insertRow time (findings.any immediate) findings else t₂)

/-- One slot becomes a row. -/
def promoteSlot (slot : Slot) : Tables :=
  let finding : Finding := ⟨slot.kind, slot.state, "COALESCED_PENDING_WARNING"⟩
  let t₁ := t.insertRow slot.time (immediate finding) [finding]
  { t₁ with overflow := t₁.overflow.filter fun other => ¬(other.kind = slot.kind ∧ other.state = slot.state) }

def promoteOverflow : Tables :=
  let slots := (t.overflow.insertionSort Slot.upTo).take (policy.maxPending - t.rows.length)
  let t₁ := slots.foldl promoteSlot t
  { t₁ with status := t₁.status.map fun status => { status with deliveryBlocked := !t₁.overflow.isEmpty } }

def acknowledge (row : Row) : Tables :=
  { t with rows := t.rows.filter fun other => other.id ≠ row.id }.promoteOverflow policy

end Tables

/-- Where the process is in `deliver`. -/
inductive Phase
  | idle
  /-- The sink is called with the row; the others of the selection follow. -/
  | offering (row : Row) (rest : List Row)
  | accepted (row : Row) (rest : List Row)

/-- The next of the selected rows, if there is one. -/
def Phase.next : List Row → Phase
  | [] => .idle
  | row :: rest => .offering row rest

/-- The tables and the process. -/
structure State where
  tables : Tables := {}
  phase : Phase := .idle

/-- What can happen. -/
inductive Input
  /-- `record`; the transaction may fail. -/
  | record (findings : List Finding) (time : String) (commits : Bool)
  /-- `deliver` selects its rows. -/
  | deliver
  | accept
  | refuse
  /-- The acknowledging transaction; it may fail. -/
  | acknowledge (commits : Bool)
  | crash

/-- What a step returns. -/
inductive Output
  /-- `record` has committed; it raises `IntegrityOutboxFull` when the outbox was full. -/
  | recorded (blocked : Bool)
  /-- The sink has accepted the event of the row. -/
  | accepted (row : Row)
  | returned (complete : Bool)
  | raised
  | none

def step (policy : Policy) : Input → State → Output × State
  | .record findings time commits, s =>
    match s.phase with
    | .idle =>
      if commits then
        let (blocked, tables) := s.tables.record policy findings time
        (.recorded blocked, { s with tables })
      else (.raised, s)
    | _ => (.none, s)
  | .deliver, s =>
    match s.phase with
    | .idle =>
      let rows := s.tables.rows.take 100
      (if rows.isEmpty then .returned true else .none, { s with phase := .next rows })
    | _ => (.none, s)
  | .accept, s =>
    match s.phase with
    | .offering row rest => (.accepted row, { s with phase := .accepted row rest })
    | _ => (.none, s)
  | .refuse, s =>
    match s.phase with
    | .offering _ _ => (.returned false, { s with phase := .idle })
    | _ => (.none, s)
  | .acknowledge commits, s =>
    match s.phase with
    | .accepted row rest =>
      if commits then
        (if rest.isEmpty then .returned true else .none,
          { tables := s.tables.acknowledge policy row, phase := .next rest })
      else (.raised, { s with phase := .idle })
    | _ => (.none, s)
  | .crash, s => (.none, { s with phase := .idle })

/-- The event of the row contains the kind and the state. -/
def Row.names (row : Row) (kind : Kind) (state : Integrity.State) : Prop :=
  ∃ finding ∈ row.findings, finding.kind = kind ∧ finding.state = state

/-- The warning is held by an undelivered row or by the overflow. -/
def Tables.Holds (t : Tables) (kind : Kind) (state : Integrity.State) : Prop :=
  (∃ row ∈ t.rows, row.names kind state) ∨ ∃ slot ∈ t.overflow, slot.kind = kind ∧ slot.state = state

/-- `delivery_blocked` is set in the row of `integrity_status`. -/
def Tables.blocked (t : Tables) : Bool := t.status.any fun status => status.deliveryBlocked

/-- The transaction of `record` committed the warning. -/
def commits (kind : Kind) (state : Integrity.State) (e : Event State Input Output) : Prop :=
  ∃ findings time blocked, e.input = .record findings time true ∧ e.output = .recorded blocked ∧
    ∃ finding ∈ findings, finding.kind = kind ∧ finding.state = state

/-- The sink accepted an event with the warning. -/
def accepts (kind : Kind) (state : Integrity.State) (e : Event State Input Output) : Prop :=
  ∃ row, e.output = .accepted row ∧ row.names kind state

/-- A whole call of `deliver` whose sink accepts every event. -/
def accepting (s : State) : List Input :=
  .deliver :: (s.tables.rows.take 100).flatMap fun _ => [.accept, .acknowledge true]

/-- The state after such a call. -/
def delivered (policy : Policy) (s : State) : State := (accepting s).foldl (fun s i => (step policy i s).2) s

end Outbox

end Sentinel.Integrity
