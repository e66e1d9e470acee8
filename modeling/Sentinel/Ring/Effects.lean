import Sentinel.Ring.Run

/-!
# What a call may do to the ledger

The abstract view of the ring: a call is a sequence of durable changes, and every change is allowed
by the time and the trust of the call and by the ledger it is made on. `Permitted` lists the
conditions, change by change; `Trace` is a sequence of permitted changes. The code is connected to it
by `Safe` triples: run from a ledger that satisfies the precondition, a program makes only permitted
changes. Everything about whole runs is then proved from `Permitted` alone.
-/

namespace Sentinel.Ring

open Program

/-- The later row is the same segment; its state and allocation may differ. -/
structure Segment.Continues (earlier later : Segment) : Prop where
  id : later.id = earlier.id
  source : later.source = earlier.source
  start : later.start = earlier.start
  stop : later.stop = earlier.stop
  length : later.length = earlier.length
  checksum : later.checksum = earlier.checksum
  clockTrusted : later.clockTrusted = earlier.clockTrusted

/-- The later row is the same incident. -/
structure Incident.Continues (earlier later : Incident) : Prop where
  id : later.id = earlier.id
  start : later.start = earlier.start
  stop : later.stop = earlier.stop
  sources : later.sources = earlier.sources

/-- What the permission of a change depends on besides the ledger. -/
structure Ctx where
  now : Int
  claimed : Bool
  trusted : Bool
  /-- The call runs `_tick` with its own trust. -/
  ticks : Bool := false
  deleting : Option UUID := none
  /-- The configuration that the Owner proposes. -/
  proposed : Option RingConfig := none

def Call.ctx (call : Call) (l : Ledger) : Ctx where
  now := call.now
  claimed := call.clockTrusted
  trusted := call.effective l
  ticks := match call with
    | .append .. | .observeConnection .. | .preserve .. | .tick .. => true
    | _ => false
  deleting := match call with
    | .deleteIncident true identifier _ _ => some identifier
    | _ => none
  proposed := match call with
    | .configure true config _ _ _ => some config
    | _ => none

/-- The selected duration, if any, no longer needs media that ends at `stop`. -/
def RingConfig.releases (config : RingConfig) (now stop : Int) : Prop :=
  config.mode = .duration → stop ≤ now - (config.value * second : Nat)

/-- Media may be reclaimed: under trusted time, with no loss pending, outside the pre-loss
window and outside the selected durations. -/
structure Reclaims (c : Ctx) (l : Ledger) (row : Segment) : Prop where
  trusted : c.trusted = true
  settled : l.pendingLoss = false
  beforePre : row.stop ≤ c.now - pre
  released : ∀ configuration ∈ l.configuration, configuration.config.releases c.now row.stop
  proposed : ∀ config ∈ c.proposed, config.releases c.now row.stop

/-- An incident may be deleted: its deletion has begun, or the Owner asks for it, or a tick finds its
retention over under trusted time. -/
def Dismisses (c : Ctx) (incident : Incident) : Prop :=
  incident.state.retained = false ∨ c.deleting = some incident.id ∨
    (c.ticks = true ∧ c.trusted = true ∧ incident.stop + retention ≤ c.now)

namespace Ledger

variable (l : Ledger)

/-- Every row with the identity satisfies `p`. -/
def EachSegment (segment : UUID) (p : Segment → Prop) : Prop :=
  ∀ row ∈ l.segments.rows, row.id = segment → p row

/-- Every incident with the identity satisfies `p`. -/
def EachIncident (incident : UUID) (p : Incident → Prop) : Prop :=
  ∀ row ∈ l.incidents.rows, row.id = incident → p row

/-- The new row fits the profile of its source and follows the earlier rows that its trust is compared
with. -/
structure Admits (c : Ctx) (row : Segment) : Prop where
  fresh : l.segments.Free row.id
  writing : row.state = .writing
  trust : row.clockTrusted = c.trusted
  ended : row.stop ≤ c.now
  recorded : c.trusted = true → l.latestClock = some c.now
  profile : ∃ configuration ∈ l.configuration, ∃ profile ∈ configuration.profiles.get? row.source,
    row.stop - row.start = (profile.segmentDurationUs : Int)
  follows : ∀ earlier ∈ l.segments.rows, earlier.source = row.source →
    (c.trusted = true → earlier.clockTrusted = true) → earlier.stop ≤ row.start

/-- The new incident is active and covers every configured source. -/
structure Opens (maximumBytes : Nat) (incident : Incident) (segments : List UUID) : Prop where
  fresh : l.incidents.Free incident.id
  active : incident.state = .active ∧ incident.completed = none ∧ incident.expires = none
  ordered : incident.start < incident.stop
  links : ∃ configuration ∈ l.configuration, incident.sources = configuration.profiles.keys ∧
    segments = (l.matching configuration.profiles (incident.start, incident.stop)).map Segment.id ∧
    ∃ required, l.ledgerCapacity maximumBytes configuration.config configuration.profiles
      { proposal := some (incident.start, incident.stop) } = .ok required

end Ledger

/-- The changes that a call may make. -/
def Permitted (s : Settings) (c : Ctx) (l : Ledger) : Action → Prop
  | .recordClock now => c.trusted = true ∧ now = c.now ∧ l.latestClock.getD 0 ≤ now
  | .setPendingLoss => l.configuration.isSome = true
  | .storeConfiguration configuration =>
    c.proposed = some configuration.config ∧ l.pendingLoss = false ∧ l.activeIncidents = []
  | .setStates changes => ∀ change ∈ changes,
      (change.2.1 = .stored ∨ change.2.1 = .missing ∨ change.2.1 = .uncertain) ∧
        l.EachSegment change.1 fun row => row.state ≠ .deleting
  | .markDeleting segment => l.isProtected segment = false ∧
      l.EachSegment segment fun row => row.state ≠ .deleting → Reclaims c l row
  | .dropSegment segment => l.isProtected segment = false ∧
      l.EachSegment segment fun row => row.state = .deleting
  | .insertSegment row incidents => l.Admits c row ∧
      incidents = l.incidentsFor row.source row.start row.stop c.now c.trusted
  | .markMissing segment => l.EachSegment segment fun row => row.state = .writing
  | .markStored segment allocated =>
    512 ≤ allocated ∧ l.EachSegment segment fun row => row.state = .writing
  | .insertIncident incident segments _ => l.Opens s.ledgerMaximumBytes incident segments
  | .markUncertain => True
  | .completeIncident incident state completed expires => c.trusted = true ∧
      (state = .complete ∨ state = .partialCoverage) ∧ l.EachIncident incident fun row =>
        row.state = .active ∧ row.stop ≤ c.now ∧ completed = row.stop ∧
          expires = row.stop + retention
  | .markIncidentDeleting incident => l.EachIncident incident fun row =>
      row.state ≠ .deleted ∧ Dismisses c row
  | .unlink incident segment deleting =>
    (l.EachIncident incident fun row => row.state.retained = false) ∧
      (deleting = true → (l.removeEdge incident segment).isProtected segment = false ∧
        l.EachSegment segment fun row => row.state ≠ .deleting → Reclaims c l row)
  | .markIncidentDeleted incident => l.EachIncident incident fun row => row.state.retained = false
  | .writeFile segment _ _ => l.EachSegment segment fun row => row.state = .writing
  | .deleteFile segment =>
    (l.isProtected segment = false ∧ l.EachSegment segment fun row => row.state = .deleting) ∨
      l.EachSegment segment fun row => row.state = .writing

/-- The logged changes, the latest first, are permitted and lead from `l₀` to the ledger. -/
inductive Trace (s : Settings) (c : Ctx) (l₀ : Ledger) : List Entry → Ledger → Prop
  | nil : Trace s c l₀ [] l₀
  | cons {log : List Entry} {l : Ledger} {action : Action} (media : Media)
      (earlier : Trace s c l₀ log l) (permitted : Permitted s c l action) :
      Trace s c l₀ (⟨action, l, media⟩ :: log) (l.apply action)

/-- What holds of every ledger that permitted changes lead to. -/
structure Ledger.Valid (l : Ledger) : Prop where
  /-- Nothing is recorded before the ring is configured. -/
  configured : l.configuration = none → l.segments.rows = [] ∧ l.incidents.rows = []
  /-- An incident that is retained has an expiry if and only if it is completed. -/
  phases : ∀ incident ∈ l.incidents.rows, incident.state.retained = true →
    (incident.completed.isSome = true ↔ incident.state ≠ .active) ∧
      (incident.expires.isSome = true ↔ incident.state ≠ .active)
  expiry : ∀ incident ∈ l.incidents.rows, ∀ expires ∈ incident.expires,
    expires = incident.stop + retention
  /-- The foreign keys of `protection`. -/
  edges : ∀ edge ∈ l.protection.rows, (∃ row ∈ l.segments.rows, row.id = edge.segment) ∧
    ∃ incident ∈ l.incidents.rows, incident.id = edge.incident
  ordered : ∀ row ∈ l.segments.rows, row.start < row.stop
  /-- Trusted rows of one source do not overlap. -/
  disjoint : ∀ row ∈ l.segments.rows, ∀ other ∈ l.segments.rows, row.source = other.source →
    row.clockTrusted = true → other.clockTrusted = true → row.id ≠ other.id →
    row.stop ≤ other.start ∨ other.stop ≤ row.start
  /-- Trusted rows end before the recorded time. -/
  past : ∀ row ∈ l.segments.rows, row.clockTrusted = true → row.stop ≤ l.latestClock.getD 0

/-- The recorded time agrees with the effective trust of the call. -/
def Timely (c : Ctx) (l : Ledger) : Prop := clockRead l c.now c.claimed = c.trusted

/-- Every permitted change of the call keeps `J`. -/
def Stable (s : Settings) (c : Ctx) (J : Ledger → Prop) : Prop :=
  ∀ l action, l.Valid → J l → Permitted s c l action → J (l.apply action)

/-- What holds of the world at every point of a call. -/
structure Sound (s : Settings) (c : Ctx) (J : Ledger → Prop) (l₀ : Ledger) (w : World) : Prop where
  valid : w.ledger.Valid
  timely : Timely c w.ledger
  frame : J w.ledger
  agrees : w.memory.configuration = w.ledger.configuration
  trace : Trace s c l₀ w.log w.ledger

/-- From a ledger that satisfies `P` the program makes only permitted changes, and ends in a value and
a ledger that satisfy `Q` or in a failure and a ledger that satisfy `E`. Whatever permitted changes
keep, the program keeps. -/
def Safe {α : Type} (s : Settings) (c : Ctx) (P : Ledger → Prop) (p : RingM α)
    (Q : α → Ledger → Prop) (E : Failure → Ledger → Prop) : Prop :=
  ∀ J l₀, Stable s c J →
    Triple (fun w => P w.ledger ∧ Sound s c J l₀ w) p (fun a w => Q a w.ledger ∧ Sound s c J l₀ w)
      fun e w => E e w.ledger ∧ Sound s c J l₀ w

/-- The failure comes from the store or the ledger, not from a decision of the ring. -/
def Failure.External : Failure → Prop
  | .ring (.ledger _) | .storage _ | .unavailable | .crash => True
  | .ring _ | .keyError => False

/-- What deletions leave of a ledger. -/
structure Ledger.Disposes (l₁ l : Ledger) : Prop where
  latestClock : l.latestClock = l₁.latestClock
  pendingLoss : l.pendingLoss = l₁.pendingLoss
  configuration : l.configuration = l₁.configuration
  incidents : ∀ incident ∈ l.incidents.rows, ∃ earlier ∈ l₁.incidents.rows, incident = earlier ∨
    ∃ state : IncidentState, state.retained = false ∧ incident = { earlier with state := state }
  protection : ∀ edge ∈ l.protection.rows, edge ∈ l₁.protection.rows
  segments : ∀ row ∈ l.segments.rows, ∃ earlier ∈ l₁.segments.rows,
    row = earlier ∨ row = { earlier with state := .deleting }

/-- Removing the segment keeps `P`, and media of that identity may be reclaimed. -/
structure Removable (c : Ctx) (P : Ledger → Prop) (segment : UUID) : Prop where
  marks : ∀ l, P l → P (l.apply (.markDeleting segment))
  drops : ∀ l, P l → P (l.apply (.dropSegment segment))
  reclaims : ∀ l, P l → l.EachSegment segment fun row => row.state ≠ .deleting → Reclaims c l row

/-- What a pass over reclaimable media leaves of a ledger: incidents stay. -/
def Ledger.Trims (l₁ l : Ledger) : Prop := l₁.Disposes l ∧ l.incidents = l₁.incidents

end Sentinel.Ring
