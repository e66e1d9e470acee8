import Sentinel.Ring.Effects

/-!
# Reads of the ledger, and what one change does to its tables

Membership in the lists that the ring reads, and one inversion lemma for each table: every row after
a change continues a row before it or was inserted by the change. Later proofs use these lemmas and
never unfold `Ledger.apply`.
-/

namespace Sentinel.Ring

variable {l : Ledger} {row : Segment} {incident : Incident} {edge : Edge} {segment : UUID} {now : Int}
  {action : Action}

/-! ## Reads -/

@[simp]
theorem Ledger.mem_rows : row ∈ l.rows ↔ row ∈ l.segments.rows :=
  List.mem_insertionSort _

theorem Ledger.edgeHolds_iff :
    l.edgeHolds edge = true ↔
      ∃ incident ∈ l.incidents.rows, incident.id = edge.incident ∧ incident.state ≠ .deleted := by
  simp [Ledger.edgeHolds]

theorem Ledger.isProtected_iff :
    l.isProtected segment = true ↔ ∃ edge ∈ l.protection.rows, edge.segment = segment ∧
      ∃ incident ∈ l.incidents.rows, incident.id = edge.incident ∧ incident.state ≠ .deleted := by
  simp [Ledger.isProtected, Ledger.edgeHolds_iff]

theorem Ledger.isProtected_mono {l l' : Ledger} (hp : l.isProtected segment = false)
    (hedges : ∀ edge ∈ l'.protection.rows, edge.segment = segment → edge ∈ l.protection.rows)
    (hincidents : ∀ incident ∈ l'.incidents.rows, incident.state ≠ .deleted →
      ∃ earlier ∈ l.incidents.rows, earlier.id = incident.id ∧ earlier.state ≠ .deleted) :
    l'.isProtected segment = false := by
  rw [Bool.eq_false_iff] at hp ⊢
  intro h
  obtain ⟨edge, hedge, hs, incident, hi, hid, hst⟩ := Ledger.isProtected_iff.mp h
  obtain ⟨earlier, he, heid, hest⟩ := hincidents incident hi hst
  exact hp (Ledger.isProtected_iff.mpr
    ⟨edge, hedges edge hedge hs, hs, earlier, he, heid.trans hid, hest⟩)

theorem Ledger.mem_linked {id : UUID} :
    row ∈ l.linked id ↔ row ∈ l.segments.rows ∧ ⟨id, row.id⟩ ∈ l.protection.rows := by
  simp [Ledger.linked]

theorem Ledger.mem_reclaimable :
    row ∈ l.reclaimable now ↔ l.pendingLoss = false ∧ row ∈ l.segments.rows ∧ row.stop ≤ now - pre ∧
      row.state ≠ .writing ∧ l.isProtected row.id = false := by
  unfold Ledger.reclaimable
  cases l.pendingLoss with
  | true => simp
  | false => simp [and_assoc]

variable {config : RingConfig} {profiles : Profiles} {source : UUID} {edges : List Edge}

theorem Ledger.mem_selectedReclaimable : row ∈ l.selectedReclaimable now config ↔
      row ∈ l.reclaimable now ∧ config.releases now row.stop := by
  unfold Ledger.selectedReclaimable RingConfig.releases
  cases config.mode with
  | duration | capacity => simp

theorem Ledger.mem_matching {window : Int × Int} :
    row ∈ l.matching profiles window ↔ row ∈ l.segments.rows ∧ window.1 < row.stop ∧
      row.start < window.2 ∧ (profiles.get? row.source).isSome = true := by
  simp [Ledger.matching, Segment.overlaps, and_assoc]

theorem Ledger.mem_incidentsFor {start stop : Int} {trusted : Bool} : incident ∈ l.incidentsFor source start stop now trusted ↔
      incident ∈ l.incidents.rows ∧ incident.state.retained = true ∧ incident.start < stop ∧
        start < incident.stop ∧ (trusted = true → ∀ expires ∈ incident.expires, now < expires) ∧
        source ∈ incident.sources := by
  have hexpires : (trusted = false ∨ (incident.expires.all fun expires => decide (now < expires)) = true)
      ↔ (trusted = true → ∀ expires ∈ incident.expires, now < expires) := by
    cases trusted with
    | false => simp
    | true => cases incident.expires <;> simp
  simp [Ledger.incidentsFor, and_assoc, hexpires]

theorem Ledger.le_maxEnd {p : Segment → Bool} (hrow : row ∈ l.segments.rows) (hsource : row.source = source) (hp : p row = true) :
    ∃ last, l.maxEnd source p = some last ∧ row.stop ≤ last := by
  have hmem : row.stop ∈ (l.segments.rows.filter fun row => row.source == source && p row).map
      Segment.stop :=
    List.mem_map_of_mem (List.mem_filter.mpr ⟨hrow, by simp [hsource, hp]⟩)
  cases hmax : l.maxEnd source p with
  | none =>
    rw [List.max?_eq_none_iff.mp hmax] at hmem
    exact absurd hmem List.not_mem_nil
  | some last => exact ⟨last, rfl, (List.max?_eq_some_iff.mp hmax).2 _ hmem⟩

/-! ## Tables -/

theorem mem_foldl_insert {t : Table (id : Edge → Edge)} :
    edge ∈ (edges.foldl Table.insert t).rows ↔ edge ∈ t.rows ∨ edge ∈ edges := by
  induction edges generalizing t with
  | nil => simp
  | cons new rest ih =>
    have hnew : edge ∈ (t.insert new).rows ↔ edge ∈ t.rows ∨ edge = new := by
      rw [Table.mem_insert]
      constructor
      · rintro (h | ⟨rfl, -⟩)
        · exact .inl h
        · exact .inr rfl
      · rintro (h | rfl)
        · exact .inl h
        · by_cases hfree : t.Free edge
          · exact .inr ⟨rfl, hfree⟩
          · simp only [Table.Free, not_forall, not_not] at hfree
            obtain ⟨other, hother, heq⟩ := hfree
            simp only [id] at heq
            exact .inl (heq ▸ hother)
    rw [List.foldl_cons, ih, hnew, List.mem_cons, or_assoc]

@[simp]
theorem Ledger.mem_insertEdges : edge ∈ (l.insertEdges edges).rows ↔ edge ∈ l.protection.rows ∨ edge ∈ edges :=
  mem_foldl_insert

@[simp]
theorem Ledger.mem_removeEdge {id : UUID} :
    edge ∈ (l.removeEdge id segment).protection.rows ↔
      edge ∈ l.protection.rows ∧ (edge.incident = id → edge.segment ≠ segment) := by
  simp only [Ledger.removeEdge, Table.mem_delete, Bool.and_eq_false_imp, beq_iff_eq, beq_eq_false_iff_ne]

theorem Ledger.mem_setState {state : SegmentState} :
    row ∈ (l.setState segment state).rows ↔ ∃ earlier ∈ l.segments.rows,
      (if earlier.id = segment then { earlier with state := state } else earlier) = row :=
  List.mem_map

theorem Ledger.mem_setIncidentState {id : UUID} {state : IncidentState} :
    incident ∈ (l.setIncidentState id state).rows ↔ ∃ earlier ∈ l.incidents.rows,
      (if earlier.id = id then { earlier with state := state } else earlier) = incident :=
  List.mem_map

/-! ## What a change does -/

@[refl]
theorem Segment.Continues.refl (row : Segment) : row.Continues row := ⟨rfl, rfl, rfl, rfl, rfl, rfl, rfl⟩

theorem Segment.Continues.trans {a b c : Segment} (hab : a.Continues b) (hbc : b.Continues c) :
    a.Continues c :=
  ⟨hbc.id.trans hab.id, hbc.source.trans hab.source, hbc.start.trans hab.start,
    hbc.stop.trans hab.stop, hbc.length.trans hab.length, hbc.checksum.trans hab.checksum,
    hbc.clockTrusted.trans hab.clockTrusted⟩

/-- The change puts the segment in the state. -/
def Action.Moves (action : Action) (segment : UUID) (state : SegmentState) : Prop :=
  match action with
  | .setStates changes => ∃ allocated, (segment, state, allocated) ∈ changes
  | .markDeleting id => id = segment ∧ state = .deleting
  | .markMissing id => id = segment ∧ state = .missing
  | .markStored id _ => id = segment ∧ state = .stored
  | .unlink _ id deleting => id = segment ∧ deleting = true ∧ state = .deleting
  | _ => False

/-- The row before a change goes on as the row after it. -/
def Action.Carries (action : Action) (earlier later : Segment) : Prop :=
  earlier.Continues later ∧ (later.state = earlier.state ∨ action.Moves later.id later.state)

theorem Action.Carries.refl (action : Action) (row : Segment) : action.Carries row row :=
  ⟨.refl row, .inl rfl⟩

theorem carries_setStates (changes : List (UUID × SegmentState × Nat)) (row : Segment) :
    Action.Carries (.setStates changes) row (match changes.find? fun change => change.1 = row.id with
      | some (_, state, allocated) => { row with state := state, allocated := allocated }
      | none => row) := by
  split
  next id state allocated hfind =>
    have hmem := List.mem_of_find?_eq_some hfind
    have hid : id = row.id := by simpa using List.find?_some hfind
    exact ⟨⟨rfl, rfl, rfl, rfl, rfl, rfl, rfl⟩, .inr ⟨allocated, hid ▸ hmem⟩⟩
  next => exact .refl _ row

theorem Ledger.segments_apply (l : Ledger) (action : Action) :
    (∃ row incidents, action = .insertSegment row incidents) ∨
      (∃ segment, action = .dropSegment segment) ∨
      Table.Corresponds action.Carries l.segments (l.apply action).segments := by
  cases action with
  | insertSegment row incidents => exact .inl ⟨row, incidents, rfl⟩
  | dropSegment segment => exact .inr (.inl ⟨segment, rfl⟩)
  | setStates changes => exact .inr (.inr (.map rfl (carries_setStates changes)))
  | markDeleting segment | markMissing segment | markStored segment allocated =>
    exact .inr (.inr (.map_key (.refl _) rfl fun row hid => ⟨⟨rfl, rfl, rfl, rfl, rfl, rfl, rfl⟩, .inr ⟨hid.symm, rfl⟩⟩))
  | unlink id segment deleting =>
    cases deleting with
    | false => exact .inr (.inr (.refl (.refl _)))
    | true =>
      exact .inr (.inr (.map_key (.refl _) rfl fun row hid => ⟨⟨rfl, rfl, rfl, rfl, rfl, rfl, rfl⟩, .inr ⟨hid.symm, rfl, rfl⟩⟩))
  | recordClock now | setPendingLoss | storeConfiguration configuration
  | insertIncident incident segments clearingPending | markUncertain | completeIncident id state completed expires
  | markIncidentDeleting id | markIncidentDeleted id | writeFile segment data allocated | deleteFile segment =>
    exact .inr (.inr (.refl (.refl _)))

/-- Every row after a change continues an earlier one or was inserted by it. -/
theorem Ledger.segment_of_apply (h : row ∈ (l.apply action).segments.rows) :
    (∃ earlier ∈ l.segments.rows, action.Carries earlier row) ∨
      ∃ incidents, action = .insertSegment row incidents := by
  rcases l.segments_apply action with ⟨new, incidents, rfl⟩ | ⟨segment, rfl⟩ | hrows
  · rcases Table.mem_insert.mp h with h | ⟨rfl, -⟩
    · exact .inl ⟨row, h, .refl _ row⟩
    · exact .inr ⟨incidents, rfl⟩
  · exact .inl ⟨row, (Table.mem_delete.mp h).1, .refl _ row⟩
  · exact .inl (hrows.back row h)

theorem Ledger.segment_apply (h : row ∈ l.segments.rows) (hdrop : action ≠ .dropSegment row.id) :
    ∃ later ∈ (l.apply action).segments.rows, action.Carries row later := by
  rcases l.segments_apply action with ⟨new, incidents, rfl⟩ | ⟨segment, rfl⟩ | hrows
  · exact ⟨row, Table.mem_insert.mpr (.inl h), .refl _ row⟩
  · have hne : row.id ≠ segment := fun heq => hdrop (heq ▸ rfl)
    exact ⟨row, Table.mem_delete.mpr ⟨h, by simpa using hne⟩, .refl _ row⟩
  · exact hrows.forth row h

/-! ### Incidents -/

@[refl]
theorem Incident.Continues.refl (incident : Incident) : incident.Continues incident :=
  ⟨rfl, rfl, rfl, rfl⟩

/-- What a change does to the state and the times of an incident. -/
def Action.Turns (action : Action) (earlier later : Incident) : Prop :=
  match action with
  | .insertSegment _ incidents =>
    (∃ read ∈ incidents, read.id = later.id ∧ read.completed.isSome = true) ∧
      later.state = .active ∧ later.completed = none ∧ later.expires = none
  | .completeIncident id state completed expires => id = later.id ∧ later.state = state ∧
      later.completed = some completed ∧ later.expires = some expires
  | .markIncidentDeleting id => id = later.id ∧ later.state = .deleting ∧
      later.expires = earlier.expires
  | .markIncidentDeleted id => id = later.id ∧ later.state = .deleted ∧
      later.expires = earlier.expires
  | _ => False

/-- The incident before a change goes on as the one after it. -/
def Action.Sustains (action : Action) (earlier later : Incident) : Prop :=
  earlier.Continues later ∧
    ((later.state = earlier.state ∧ later.completed = earlier.completed ∧
      later.expires = earlier.expires) ∨ action.Turns earlier later)

theorem Action.Sustains.refl (action : Action) (incident : Incident) :
    action.Sustains incident incident :=
  ⟨.refl incident, .inl ⟨rfl, rfl, rfl⟩⟩

theorem touched_sustained (row : Segment) (incidents : List Incident) (incident : Incident) :
    Action.Sustains (.insertSegment row incidents) incident
      (match incidents.find? fun read => read.id = incident.id with
        | some read => Ledger.touchIncident row.clockTrusted read incident
        | none => incident) := by
  split
  next read hfind =>
    have hmem := List.mem_of_find?_eq_some hfind
    have hid : read.id = incident.id := by simpa using List.find?_some hfind
    refine ⟨⟨rfl, rfl, rfl, rfl⟩, ?_⟩
    by_cases hdone : read.completed.isSome = true
    · exact .inr ⟨⟨read, hmem, hid, hdone⟩, by simp [Ledger.touchIncident, hdone],
        by simp [Ledger.touchIncident, hdone], by simp [Ledger.touchIncident, hdone]⟩
    · exact .inl ⟨by simp [Ledger.touchIncident, hdone], by simp [Ledger.touchIncident, hdone],
        by simp [Ledger.touchIncident, hdone]⟩
  next => exact .refl _ incident

theorem Ledger.incidents_apply (l : Ledger) (action : Action) :
    (∃ incident segments clearingPending, action = .insertIncident incident segments clearingPending) ∨
      Table.Corresponds action.Sustains l.incidents (l.apply action).incidents := by
  cases action with
  | insertIncident incident segments clearingPending =>
    exact .inl ⟨incident, segments, clearingPending, rfl⟩
  | insertSegment row incidents => exact .inr (.map rfl (touched_sustained row incidents))
  | markUncertain => exact .inr (.map rfl fun incident => ⟨⟨rfl, rfl, rfl, rfl⟩, .inl ⟨rfl, rfl, rfl⟩⟩)
  | completeIncident id state completed expires =>
    exact .inr (.map_key (.refl _) rfl fun row hid => ⟨⟨rfl, rfl, rfl, rfl⟩, .inr ⟨hid.symm, rfl, rfl, rfl⟩⟩)
  | markIncidentDeleting id | markIncidentDeleted id =>
    exact .inr (.map_key (.refl _) rfl fun row hid => ⟨⟨rfl, rfl, rfl, rfl⟩, .inr ⟨hid.symm, rfl, rfl⟩⟩)
  | unlink id segment deleting =>
    cases deleting with
    | false | true => exact .inr (.refl (.refl _))
  | recordClock now | setPendingLoss | storeConfiguration configuration | setStates changes | markDeleting segment
  | dropSegment segment | markMissing segment | markStored segment allocated | writeFile segment data allocated
  | deleteFile segment => exact .inr (.refl (.refl _))

/-- Every incident after a change continues an earlier one or was inserted by it. -/
theorem Ledger.incident_of_apply (h : incident ∈ (l.apply action).incidents.rows) :
    (∃ earlier ∈ l.incidents.rows, action.Sustains earlier incident) ∨
      ∃ segments clearingPending, action = .insertIncident incident segments clearingPending := by
  rcases l.incidents_apply action with ⟨new, segments, clearing, rfl⟩ | hrows
  · rcases Table.mem_insert.mp h with h | ⟨rfl, -⟩
    · exact .inl ⟨incident, h, .refl _ incident⟩
    · exact .inr ⟨segments, clearing, rfl⟩
  · exact .inl (hrows.back incident h)

theorem Ledger.incident_apply (h : incident ∈ l.incidents.rows) :
    ∃ later ∈ (l.apply action).incidents.rows, action.Sustains incident later := by
  rcases l.incidents_apply action with ⟨new, segments, clearing, rfl⟩ | hrows
  · exact ⟨incident, Table.mem_insert.mpr (.inl h), .refl _ incident⟩
  · exact hrows.forth incident h

/-! ### Protection -/

/-- The change links the segment to the incident. -/
def Action.Links (action : Action) (edge : Edge) : Prop :=
  match action with
  | .insertSegment row incidents =>
    edge.segment = row.id ∧ ∃ incident ∈ incidents, incident.id = edge.incident
  | .insertIncident incident segments _ => edge.incident = incident.id ∧ edge.segment ∈ segments
  | _ => False

/-- The change cuts the edge. -/
def Action.Cuts (action : Action) (edge : Edge) : Prop :=
  match action with
  | .dropSegment segment => edge.segment = segment
  | .unlink incident segment _ => edge.incident = incident ∧ edge.segment = segment
  | _ => False

theorem Ledger.mem_protection_apply :
    edge ∈ (l.apply action).protection.rows ↔
      (edge ∈ l.protection.rows ∧ ¬ action.Cuts edge) ∨ action.Links edge := by
  cases action with
  | insertSegment row incidents =>
    have hlink : edge ∈ incidents.map (fun incident => (⟨incident.id, row.id⟩ : Edge)) ↔
        edge.segment = row.id ∧ ∃ incident ∈ incidents, incident.id = edge.incident := by
      rw [List.mem_map]
      constructor
      · rintro ⟨incident, hi, rfl⟩
        exact ⟨rfl, incident, hi, rfl⟩
      · rintro ⟨hs, incident, hi, hid⟩
        exact ⟨incident, hi, by cases edge; simp_all⟩
    simp only [Ledger.apply, Ledger.mem_insertEdges, Action.Cuts, Action.Links, not_false_eq_true,
      and_true, hlink]
  | insertIncident incident segments clearingPending =>
    have hlink : edge ∈ segments.map (fun segment => (⟨incident.id, segment⟩ : Edge)) ↔
        edge.incident = incident.id ∧ edge.segment ∈ segments := by
      rw [List.mem_map]
      constructor
      · rintro ⟨segment, hs, rfl⟩
        exact ⟨rfl, hs⟩
      · rintro ⟨hi, hs⟩
        exact ⟨edge.segment, hs, by cases edge; simp_all⟩
    simp only [Ledger.apply, Ledger.mem_insertEdges, Action.Cuts, Action.Links, not_false_eq_true,
      and_true, hlink]
  | dropSegment segment => simp [Ledger.apply, Action.Cuts, Action.Links]
  | unlink id segment deleting =>
    cases deleting with
    | false | true => simp [Ledger.apply, Action.Cuts, Action.Links]
  | _ => simp [Ledger.apply, Action.Cuts, Action.Links]

/-! ### Settings -/

theorem Ledger.latestClock_apply (h : ∀ now, action ≠ .recordClock now) :
    (l.apply action).latestClock = l.latestClock := by
  cases action with
  | recordClock now => exact absurd rfl (h now)
  | unlink id segment deleting => cases deleting <;> rfl
  | _ => rfl

theorem Ledger.configuration_apply (h : ∀ configuration, action ≠ .storeConfiguration configuration) :
    (l.apply action).configuration = l.configuration := by
  cases action with
  | storeConfiguration configuration => exact absurd rfl (h configuration)
  | unlink id segment deleting => cases deleting <;> rfl
  | _ => rfl

/-! ## The horizon -/

theorem le_bisect {fits : Nat → Bool} {fuel left right : Nat} : left ≤ bisect fits fuel left right := by
  induction fuel generalizing left right with
  | zero => exact le_rfl
  | succ fuel ih =>
    unfold bisect
    dsimp only
    split_ifs with hlt hfits
    · have hmid : left ≤ (left + right + 1) / 2 := by omega
      exact hmid.trans ih
    · exact ih
    · exact le_rfl

theorem pre_le_horizonUs (config : RingConfig) (profiles : Profiles) :
    pre ≤ horizonUs config profiles := by
  unfold horizonUs
  cases hmode : config.mode with
  | duration =>
    have hvalue := config.holdsPre hmode
    show 600 * second ≤ config.value * second
    exact Nat.mul_le_mul_right second hvalue
  | capacity =>
    dsimp only
    split_ifs
    · exact le_bisect
    · exact le_rfl

theorem releases_of_horizon {stop : Int} (h : stop ≤ now - horizonUs config profiles) : config.releases now stop := by
  intro hmode
  have hus : horizonUs config profiles = config.value * second := by simp [horizonUs, hmode]
  rwa [hus] at h

end Sentinel.Ring
