import Sentinel.Ring.Chain

/-!
# Evidence and its links

What the protection of incidents is for: the media of a retained incident is its evidence, evidence is
not reclaimed, and every segment that overlaps an incident is linked to it. The predicates here speak
about ledgers and about the logged changes of runs.
-/

namespace Sentinel.Ring

def Entry.after (entry : Entry) : Ledger := entry.ledger.apply entry.action

/-- The change removes the file of the segment. -/
def Action.removes (action : Action) (segment : UUID) : Bool :=
  match action with
  | .deleteFile id => decide (id = segment)
  | _ => false

theorem Action.removes_iff {action : Action} {segment : UUID} :
    action.removes segment = true ↔ action = .deleteFile segment := by
  cases action <;> simp [Action.removes]

/-- The row is linked to an incident that is retained. -/
def Ledger.Evidence (l : Ledger) (row : Segment) : Prop :=
  ∃ incident ∈ l.incidents.rows, incident.state.retained = true ∧
    (⟨incident.id, row.id⟩ : Edge) ∈ l.protection.rows

/-- No incident is opened over a row that is under deletion. -/
def OpensApart (entry : Entry) : Prop :=
  ∀ incident segments clearingPending,
    entry.action = .insertIncident incident segments clearingPending →
    ∀ row ∈ entry.ledger.segments.rows, row.id ∈ segments → row.state ≠ .deleting

instance (entry : Entry) : Decidable (OpensApart entry) :=
  match h : entry.action with
  | .insertIncident incident segments clearingPending =>
    decidable_of_iff (∀ row ∈ entry.ledger.segments.rows, row.id ∈ segments → row.state ≠ .deleting)
      ⟨fun hrows _ _ _ heq => by
        rw [h] at heq
        injection heq with _ hsegments _
        exact hsegments ▸ hrows, fun hopens => hopens incident segments clearingPending h⟩
  | .recordClock _ | .setPendingLoss | .storeConfiguration _ | .setStates _ | .markDeleting _
  | .dropSegment _ | .insertSegment _ _ | .markMissing _ | .markStored _ _ | .markUncertain
  | .completeIncident _ _ _ _ | .markIncidentDeleting _ | .unlink _ _ _ | .markIncidentDeleted _
  | .writeFile _ _ _ | .deleteFile _ =>
    .isTrue fun _ _ _ heq => by
      rw [h] at heq
      cases heq

/-- The segment belongs to a source of the incident and overlaps its window. -/
structure Incident.Covers (incident : Incident) (row : Segment) : Prop where
  source : row.source ∈ incident.sources
  overlaps : incident.start < row.stop ∧ row.start < incident.stop

/-- The change appended the segment under a trusted clock, when the incident had expired. -/
structure AppendedLate (c : Ctx) (entry : Entry) (row : Segment) (incident : Incident) : Prop where
  appended : ∃ new incidents, entry.action = .insertSegment new incidents ∧ new.Continues row
  trusted : c.trusted = true
  expired : ∃ earlier ∈ entry.ledger.incidents.rows, earlier.id = incident.id ∧
    ∃ expires ∈ earlier.expires, expires ≤ c.now

end Sentinel.Ring
