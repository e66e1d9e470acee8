import Sentinel.Lib.Proofs.DictProofs
import Sentinel.Ring.Evidence
import Sentinel.Ring.Proofs.RunProofs

/-!
# Evidence is kept, linked and never entangled with a deletion

Step lemmas about one permitted change, and from them the statements about whole runs: protected
evidence is not reclaimed, the links of incidents are complete, and, as long as no incident is opened
over media under deletion, a ledger can be opened again.
-/

namespace Sentinel.Ring

variable {s : Settings} {c : Ctx} {l : Ledger} {action : Action} {row later : Segment}
  {incident : Incident}

/-! ## Steps -/

theorem not_writing_apply (hp : Permitted s c l action) (hrow : row ∈ l.segments.rows)
    (hstate : row.state ≠ .writing) :
    (l.apply action).EachSegment row.id fun later => later.state ≠ .writing := by
  intro later hlater hid
  rcases Ledger.segment_of_apply hlater with ⟨earlier, he, hcont, hsame | hmoves⟩ | ⟨incidents, rfl⟩
  · obtain rfl : earlier = row := Table.eq_of_key he hrow (hcont.id.symm.trans hid)
    rwa [hsame]
  · rcases hp.moves hmoves with ⟨hst, -⟩ | ⟨hst, -⟩
    · exact hst
    · simp [hst]
  · exact absurd hid.symm (hp.1.fresh row hrow)

theorem not_deleted (h : incident.state.retained = true) : incident.state ≠ .deleted := by
  intro hdel
  simp [hdel, IncidentState.retained] at h

theorem Ledger.Evidence.isProtected (h : l.Evidence row) : l.isProtected row.id = true := by
  obtain ⟨incident, hi, hret, hedge⟩ := h
  exact Ledger.isProtected_iff.mpr ⟨_, hedge, rfl, incident, hi, rfl, not_deleted hret⟩

theorem not_cuts (hp : Permitted s c l action) (hi : incident ∈ l.incidents.rows)
    (hret : incident.state.retained = true) (hdrop : action ≠ .dropSegment row.id) :
    ¬ action.Cuts ⟨incident.id, row.id⟩ := by
  intro hcut
  cases action with
  | dropSegment segment =>
    obtain rfl : row.id = segment := hcut
    exact hdrop rfl
  | unlink id segment deleting =>
    exact absurd (hret.symm.trans (hp.1 incident hi hcut.1)) (by decide)
  | _ => exact hcut

variable {segment : UUID} {log : List (Ctx × Entry)}

/-- The row of evidence goes on and is not put under deletion, and its file stays. -/
theorem evidence_apply (hp : Permitted s c l action) (hrow : row ∈ l.segments.rows)
    (hstate : row.state ≠ .writing) (hev : l.Evidence row) :
    (∃ later ∈ (l.apply action).segments.rows, row.Continues later ∧
      (later.state = .deleting → row.state = .deleting)) ∧ action ≠ .deleteFile row.id := by
  have hprot := hev.isProtected
  constructor
  · have hdrop : action ≠ .dropSegment row.id := by
      rintro rfl
      exact absurd (hprot.symm.trans hp.1) (by decide)
    obtain ⟨later, hlater, hcont, hsame | hmoves⟩ := Ledger.segment_apply hrow hdrop
    · exact ⟨later, hlater, hcont, fun hdel => hsame.symm.trans hdel⟩
    · refine ⟨later, hlater, hcont, fun hdel => ?_⟩
      rcases hp.moves hmoves with ⟨-, hst⟩ | ⟨-, hfree, -⟩
      · exact absurd hdel hst
      · -- the edge of a retained incident holds and is not cut
        obtain ⟨incident, hi, hret, hedge⟩ := hev
        have hcut := hfree _ hedge hcont.id.symm (Ledger.edgeHolds_iff.mpr ⟨incident, hi, rfl, not_deleted hret⟩)
        exact absurd hcut (not_cuts hp hi hret hdrop)
  · rintro rfl
    rcases hp with ⟨hunprot, -⟩ | hwriting
    · exact absurd (hprot.symm.trans hunprot) (by decide)
    · exact hstate (hwriting row hrow rfl)

theorem retained_apply (hp : Permitted s c l action) (hi : incident ∈ l.incidents.rows)
    (hret : incident.state.retained = true) :
    ∃ later ∈ (l.apply action).incidents.rows, incident.Continues later ∧
      (later.state.retained = true ∨ Dismisses c incident) := by
  obtain ⟨later, hlater, hsus⟩ : ∃ later ∈ (l.apply action).incidents.rows,
      action.Sustains incident later := Ledger.incident_apply hi
  obtain ⟨hcont, hsame | hturn⟩ := hsus
  · exact ⟨later, hlater, hcont, .inl (hsame.1 ▸ hret)⟩
  · refine ⟨later, hlater, hcont, ?_⟩
    cases action with
    | insertSegment row incidents =>
      rw [hturn.2.1]
      exact .inl rfl
    | completeIncident id state completed expires =>
      rw [hturn.2.1]
      rcases hp.2.1 with rfl | rfl
      · exact .inl rfl
      · exact .inl rfl
    | markIncidentDeleting id => exact .inr (hp incident hi (hcont.id.symm.trans hturn.1.symm)).2
    | markIncidentDeleted id =>
      have hgone := hp incident hi (hcont.id.symm.trans hturn.1.symm)
      exact absurd (hret.symm.trans hgone) (by decide)
    | _ => exact hturn.elim

/-- An incident that keeps nothing stays so, and a deleted one stays deleted. -/
theorem state_of_sustains (hp : Permitted s c l action) {later : Incident}
    (hi : incident ∈ l.incidents.rows) (h : action.Sustains incident later) :
    (later.state.retained = true → incident.state.retained = true) ∧
      (later.state ≠ .deleted → incident.state ≠ .deleted) := by
  obtain ⟨hcont, hsame | hturn⟩ := h
  · rw [hsame.1]
    exact ⟨fun h => h, fun h => h⟩
  · cases action with
    | insertSegment row incidents =>
      obtain ⟨⟨read, hread, hid, -⟩, -⟩ := hturn
      rw [hp.2] at hread
      obtain ⟨hmem, hretained, -⟩ := Ledger.mem_incidentsFor.mp hread
      obtain rfl : read = incident := Table.eq_of_key hmem hi (hid.trans hcont.id)
      exact ⟨fun _ => hretained, fun _ => not_deleted hretained⟩
    | completeIncident id state completed expires =>
      have hactive := (hp.2.2 incident hi (hcont.id.symm.trans hturn.1.symm)).1
      rw [hactive]
      exact ⟨fun _ => rfl, fun _ h => by cases h⟩
    | markIncidentDeleting id =>
      refine ⟨fun hret => ?_, fun _ => (hp incident hi (hcont.id.symm.trans hturn.1.symm)).1⟩
      rw [hturn.2.1] at hret
      cases hret
    | markIncidentDeleted id =>
      rw [hturn.2.1]
      exact ⟨fun h => (by cases h), fun h => absurd rfl h⟩
    | _ => exact hturn.elim

/-! ## Protected evidence -/

variable {media : Media} {h : History} {sys : Sys} {e : Event Sys (Call × Env) Output} {entry : Entry}

/-- Whatever the calls, faults and crashes, a change made by the ring never reclaims media that a
retained incident is linked to, and an incident stops being retained only by the Owner's deletion or
by a tick under trusted time after its retention. -/
theorem protected_evidence_kept (hr : Reaches (step s) { media := media } h sys) (he : e ∈ h)
    (hentry : entry ∈ e.output.log) :
    (∀ row ∈ entry.ledger.segments.rows, row.state ≠ .writing →
      entry.after.EachSegment row.id fun later => later.state ≠ .writing) ∧
    (∀ row ∈ entry.ledger.segments.rows, row.state ≠ .writing → entry.ledger.Evidence row →
      (∃ later ∈ entry.after.segments.rows, row.Continues later ∧
        (later.state = .deleting → row.state = .deleting)) ∧ entry.action ≠ .deleteFile row.id) ∧
    ∀ incident ∈ entry.ledger.incidents.rows, incident.state.retained = true →
      ∃ later ∈ entry.after.incidents.rows, incident.Continues later ∧
        (later.state.retained = true ∨
          (∃ now trusted, e.input.1 = .deleteIncident true incident.id now trusted) ∨
          ((contextOf e).ticks = true ∧ e.input.1.effective e.before.ledger = true ∧
            incident.stop + retention ≤ e.input.1.now)) := by
  obtain ⟨hp, -⟩ := permitted_of_reaches hr he hentry
  refine ⟨fun row hrow hstate => not_writing_apply hp hrow hstate,
    fun row hrow hstate hev => evidence_apply hp hrow hstate hev, fun incident hi hret => ?_⟩
  obtain ⟨later, hlater, hcont, hkept | hdismiss⟩ := retained_apply hp hi hret
  · exact ⟨later, hlater, hcont, .inl hkept⟩
  · refine ⟨later, hlater, hcont, .inr ?_⟩
    rcases hdismiss with hgone | howner | hexpired
    · rw [hret] at hgone
      cases hgone
    · left
      unfold contextOf Call.ctx at howner
      dsimp only at howner
      split at howner
      next id now trusted heq =>
        obtain rfl := Option.some.inj howner
        exact ⟨now, trusted, heq⟩
      next => cases howner
    · exact .inr hexpired

/-- A ring with one segment, protected by an incident that is completed by a tick. -/
def protectedCalls : List (Call × Env) :=
  [(.openRing, {}), (.configure true (keeping 600 tenMinutes) [camera] (seconds 600) true, {}),
    segmentAt 600 1, (.preserve true .cameraTamper 0 (seconds 700) (seconds 600) true, ⟨[], [2]⟩),
    segmentAt 1200 3, (.tick (seconds 1900) true, {})]

/-- The first segment of that run is evidence when the tick completes the incident, and stays. -/
theorem protected_evidence_kept_completed : ∃ e ∈ (runFrom roomy protectedCalls).1,
    ∃ entry ∈ e.output.log, ∃ row ∈ entry.ledger.segments.rows, row.state = .stored ∧
      entry.ledger.Evidence row ∧ e.input.1.now = seconds 1900 ∧
      entry.action ≠ .deleteFile row.id := by
  have hrun : ∃ e ∈ (runFrom roomy protectedCalls).1, ∃ entry ∈ e.output.log,
      ∃ row ∈ entry.ledger.segments.rows, row.state = .stored ∧
        (∃ incident ∈ entry.ledger.incidents.rows, incident.state.retained = true ∧
          (⟨incident.id, row.id⟩ : Edge) ∈ entry.ledger.protection.rows) ∧
        e.input.1.now = seconds 1900 := by
    decide +kernel
  obtain ⟨e, he, entry, hentry, row, hrow, hstored, hev, htick⟩ := hrun
  have hreaches := reaches_runFrom roomy protectedCalls
  have hkept := (protected_evidence_kept hreaches he hentry).2.1 row hrow (by simp [hstored]) hev
  exact ⟨e, he, entry, hentry, row, hrow, hstored, hev, htick, hkept.2⟩

/-! ## Deletions and protection -/

/-- What protects a segment after a change protected it before, or was linked by the change. -/
theorem protected_of_apply (hv : l.Valid) (hp : Permitted s c l action) (hprot : (l.apply action).isProtected segment = true) :
    ∃ edge, edge.segment = segment ∧ (action.Links edge ∨
      (edge ∈ l.protection.rows ∧ ¬ action.Cuts edge ∧ l.edgeHolds edge = true)) := by
  obtain ⟨edge, hedge, hseg, incident, hi, hid, hst⟩ := Ledger.isProtected_iff.mp hprot
  refine ⟨edge, hseg, ?_⟩
  rcases Ledger.mem_protection_apply.mp hedge with ⟨hold, hcut⟩ | hlink
  · refine .inr ⟨hold, hcut, Ledger.edgeHolds_iff.mpr ?_⟩
    rcases Ledger.incident_of_apply hi with ⟨earlier, hearlier, hsus⟩ | ⟨segments, clearing, rfl⟩
    · exact ⟨earlier, hearlier, hsus.1.id.symm.trans hid,
        (state_of_sustains hp hearlier hsus).2 hst⟩
    · -- an edge that was there belongs to an incident that was there
      obtain ⟨earlier, hearlier, hid'⟩ := (hv.edges edge hold).2
      exact absurd (hid'.trans hid.symm) (hp.fresh earlier hearlier)
  · exact .inl hlink

/-- A change does not entangle a ledger, unless it opens an incident over media under deletion. -/
theorem entangled_apply (hv : l.Valid) (hl : ¬ Entangled l) (hp : Permitted s c l action)
    (hapart : OpensApart ⟨action, l, media⟩) : ¬ Entangled (l.apply action) := by
  rintro ⟨row, hrow, hstate, hprot⟩
  obtain ⟨edge, hseg, hedge⟩ := protected_of_apply hv hp hprot
  rcases Ledger.segment_of_apply hrow with ⟨earlier, hearlier, hcont, hsame | hmoves⟩ | ⟨incidents, rfl⟩
  · -- the row was under deletion before
    have hdeleting : earlier.state = .deleting := hsame.symm.trans hstate
    rcases hedge with hlink | ⟨hmem, -, hholds⟩
    · cases action with
      | insertSegment new incidents =>
        exact hp.1.fresh earlier hearlier (hcont.id.symm.trans (hseg.symm.trans hlink.1))
      | insertIncident incident segments clearing =>
        refine hapart incident segments clearing rfl earlier hearlier ?_ hdeleting
        rw [← hcont.id, ← hseg]
        exact hlink.2
      | _ => exact hlink
    · exact hl ⟨earlier, hearlier, hdeleting,
        Ledger.isProtected_iff.mpr ⟨edge, hmem, hseg.trans hcont.id, Ledger.edgeHolds_iff.mp hholds⟩⟩
  · -- the change put the row under deletion
    rcases hp.moves hmoves with ⟨-, hst⟩ | ⟨-, hfree, hlinks, -⟩
    · exact hst hstate
    · rcases hedge with hlink | ⟨hmem, hcut, hholds⟩
      · exact hlinks edge hlink
      · exact hcut (hfree edge hmem hseg hholds)
  · exact absurd (hstate.symm.trans hp.1.writing) nofun

theorem not_entangled (hchain : Chain s log l) (hapart : ∀ item ∈ log, OpensApart item.2) : ¬ Entangled l := by
  induction hchain with
  | nil =>
    rintro ⟨row, hrow, -⟩
    exact absurd hrow List.not_mem_nil
  | cons c media hlog hp ih =>
    refine entangled_apply hlog.valid (ih fun item hitem => hapart item (List.mem_cons_of_mem _ hitem))
      hp (hapart _ List.mem_cons_self)

/-- In every run in which no incident is opened over media under deletion, no row is both under
deletion and protected, and opening the ledger is never refused for one. -/
theorem reopening_not_blocked (hr : Reaches (step s) { media := media } h sys)
    (hapart : ∀ e ∈ h, ∀ entry ∈ e.output.log, OpensApart entry) :
    (¬ ∃ row ∈ sys.ledger.segments.rows, row.state = .deleting ∧
      ∃ incident ∈ sys.ledger.incidents.rows, incident.state ≠ .deleted ∧
        (⟨incident.id, row.id⟩ : Edge) ∈ sys.ledger.protection.rows) ∧
    ∀ env, (step s (.openRing, env) sys).1.result ≠
      .error (.ring .protectedSegmentDeletionRefused) := by
  obtain ⟨hchain, hvalid⟩ := chain_of_reaches hr
  have hfree : ¬ Entangled sys.ledger := by
    refine not_entangled hchain fun item hitem => ?_
    obtain ⟨e, he, hin⟩ := List.mem_flatMap.mp hitem
    obtain ⟨entry, hentry, rfl⟩ := List.mem_map.mp hin
    exact hapart e he entry hentry
  constructor
  · rintro ⟨row, hrow, hstate, incident, hi, hst, hedge⟩
    exact hfree ⟨row, hrow, hstate, Ledger.isProtected_iff.mpr ⟨_, hedge, rfl, incident, hi, rfl, hst⟩⟩
  · exact fun env hres => hfree ((step_spec (.openRing, env) sys hvalid).opens rfl hres)

/-- The deletion of an aged segment is refused by the store, and an incident is opened over it. -/
def blockedCalls : List (Call × Env) :=
  [(.openRing, {}), (.configure true (keeping 600 tenMinutes) [camera] (seconds 600) true, {}),
    segmentAt 600 1,
    segmentAt 1200 2 [{}, {}, {}, {}, { fault := some (.storage .segmentWriteFailed) }],
    (.preserve true .cameraTamper 0 (seconds 1200) (seconds 1200) true, ⟨[], [3]⟩), (.close, {})]

/-- After that run a row is under deletion and protected, and the ledger cannot be opened again. -/
theorem reopening_blocked :
    (∃ row ∈ (runFrom roomy blockedCalls).2.ledger.segments.rows, row.state = .deleting ∧
      ∃ incident ∈ (runFrom roomy blockedCalls).2.ledger.incidents.rows,
        incident.state ≠ .deleted ∧ (⟨incident.id, row.id⟩ : Edge) ∈
          (runFrom roomy blockedCalls).2.ledger.protection.rows) ∧
    (step roomy (.openRing, {}) (runFrom roomy blockedCalls).2).1.failure =
      some (.ring .protectedSegmentDeletionRefused) := by
  decide +kernel

/-- The run of a protected segment meets the condition, so its ledger opens again. -/
theorem reopening_not_blocked_protected :
    (∀ e ∈ (runFrom roomy protectedCalls).1, ∀ entry ∈ e.output.log, OpensApart entry) ∧
    ∀ env, (step roomy (.openRing, env) (runFrom roomy protectedCalls).2).1.result ≠
      .error (.ring .protectedSegmentDeletionRefused) := by
  have hapart : ∀ e ∈ (runFrom roomy protectedCalls).1, ∀ entry ∈ e.output.log, OpensApart entry := by
    decide +kernel
  have hreaches := reaches_runFrom roomy protectedCalls
  exact ⟨hapart, (reopening_not_blocked hreaches hapart).2⟩

/-! ## Links -/

/-- Every segment that a retained incident covers is linked to it, or was appended late. -/
def Linked (log : List (Ctx × Entry)) (l : Ledger) : Prop :=
  ∀ incident ∈ l.incidents.rows, incident.state.retained = true →
    ∀ row ∈ l.segments.rows, incident.Covers row →
      (⟨incident.id, row.id⟩ : Edge) ∈ l.protection.rows ∨
        ∃ item ∈ log, AppendedLate item.1 item.2 row incident

theorem AppendedLate.continues {row' : Segment} {incident' : Incident}
    (h : AppendedLate c entry row incident) (hrow : row.Continues row')
    (hid : incident'.id = incident.id) : AppendedLate c entry row' incident' := by
  obtain ⟨new, incidents, haction, hcont⟩ := h.appended
  obtain ⟨earlier, he, hid', hexpired⟩ := h.expired
  exact ⟨⟨new, incidents, haction, hcont.trans hrow⟩, h.trusted, earlier, he, hid'.trans hid.symm,
    hexpired⟩

theorem linked_old (hl : Linked log l) (hp : Permitted s c l action) {earlier : Incident} {old : Segment}
    (hearlier : earlier ∈ l.incidents.rows) (hsus : action.Sustains earlier incident) (hret : incident.state.retained = true)
    (hold : old ∈ l.segments.rows) (hrow : row ∈ (l.apply action).segments.rows) (hcont : old.Continues row)
    (hcovers : incident.Covers row) : (⟨incident.id, row.id⟩ : Edge) ∈ (l.apply action).protection.rows ∨
      ∃ item ∈ log, AppendedLate item.1 item.2 row incident := by
  have hret' := (state_of_sustains hp hearlier hsus).1 hret
  have hcovers' : earlier.Covers old := by
    refine ⟨?_, ?_⟩
    · rw [← hsus.1.sources, ← hcont.source]
      exact hcovers.source
    · rw [← hsus.1.start, ← hsus.1.stop, ← hcont.start, ← hcont.stop]
      exact hcovers.overlaps
  rcases hl earlier hearlier hret' old hold hcovers' with hedge | ⟨item, hitem, hlate⟩
  · have hdrop : action ≠ .dropSegment old.id := by
      rintro rfl
      have hne := (Table.mem_delete.mp hrow).2
      simp [hcont.id] at hne
    have hkept := Ledger.mem_protection_apply.mpr (.inl ⟨hedge, not_cuts hp hearlier hret' hdrop⟩)
    rw [← hsus.1.id, ← hcont.id] at hkept
    exact .inl hkept
  · exact .inr ⟨item, hitem, hlate.continues hcont hsus.1.id⟩

theorem linked_apply (hl : Linked log l) (hp : Permitted s c l action) :
    Linked ((c, ⟨action, l, media⟩) :: log) (l.apply action) := by
  intro incident hi hret row hrow hcovers
  have hold : (∃ item ∈ log, AppendedLate item.1 item.2 row incident) →
      ∃ item ∈ (c, ⟨action, l, media⟩) :: log, AppendedLate item.1 item.2 row incident :=
    fun ⟨item, hitem, hlate⟩ => ⟨item, List.mem_cons_of_mem _ hitem, hlate⟩
  rcases Ledger.incident_of_apply hi with ⟨earlier, hearlier, hsus⟩ | ⟨segments, clearing, rfl⟩
  · rcases Ledger.segment_of_apply hrow with ⟨old, hmem, hcont, -⟩ | ⟨incidents, rfl⟩
    · exact (linked_old hl hp hearlier hsus hret hmem hrow hcont hcovers).imp id hold
    · -- a new row is linked to every incident it belongs to, unless the incident has expired
      have hret' := (state_of_sustains hp hearlier hsus).1 hret
      by_cases hfor : earlier ∈ l.incidentsFor row.source row.start row.stop c.now c.trusted
      · refine .inl (Ledger.mem_protection_apply.mpr (.inr ⟨rfl, earlier, hp.2 ▸ hfor, ?_⟩))
        exact hsus.1.id.symm
      · have hlate : c.trusted = true ∧ ∃ expires ∈ earlier.expires, expires ≤ c.now := by
          by_contra hnot
          refine hfor (Ledger.mem_incidentsFor.mpr ⟨hearlier, hret', ?_, ?_, ?_, ?_⟩)
          · rw [← hsus.1.start]
            exact hcovers.overlaps.1
          · rw [← hsus.1.stop]
            exact hcovers.overlaps.2
          · intro htrusted expires hexp
            by_contra hle
            exact hnot ⟨htrusted, expires, hexp, not_lt.mp hle⟩
          · rw [← hsus.1.sources]
            exact hcovers.source
        exact .inr ⟨_, List.mem_cons_self, ⟨row, incidents, rfl, .refl row⟩, hlate.1, earlier,
          hearlier, hsus.1.id.symm, hlate.2⟩
  · -- a new incident is linked to every row it covers
    have hmem : row ∈ l.segments.rows := hrow
    obtain ⟨k, -, hsources, hsegments, -⟩ := hp.links
    have hsome : (k.profiles.get? row.source).isSome = true := by
      obtain ⟨profile, hget⟩ := Dict.mem_keys_iff.mp (hsources ▸ hcovers.source)
      rw [hget]
      rfl
    have hmatch : row ∈ l.matching k.profiles (incident.start, incident.stop) :=
      Ledger.mem_matching.mpr ⟨hmem, hcovers.overlaps.1, hcovers.overlaps.2, hsome⟩
    have hlink : row.id ∈ segments := hsegments ▸ List.mem_map_of_mem hmatch
    exact .inl (Ledger.mem_protection_apply.mpr (.inr ⟨rfl, hlink⟩))

theorem linked_of_chain (hchain : Chain s log l) : Linked log l := by
  induction hchain with
  | nil => exact fun incident hi => absurd hi List.not_mem_nil
  | cons c media _ hp ih => exact linked_apply ih hp

/-- In every reachable state every segment that a retained incident covers is linked to it, except
for segments that were appended under a trusted clock once the incident had expired. -/
theorem incident_links_complete (hr : Reaches (step s) { media := media } h sys)
    (hi : incident ∈ sys.ledger.incidents.rows) (hret : incident.state.retained = true)
    (hrow : row ∈ sys.ledger.segments.rows) (hsource : row.source ∈ incident.sources)
    (hstart : incident.start < row.stop) (hstop : row.start < incident.stop) :
    (⟨incident.id, row.id⟩ : Edge) ∈ sys.ledger.protection.rows ∨
      ∃ e ∈ h, ∃ entry ∈ e.output.log, ∃ new incidents, entry.action = .insertSegment new incidents ∧
        new.Continues row ∧ e.input.1.effective e.before.ledger = true ∧
        ∃ earlier ∈ entry.ledger.incidents.rows, earlier.id = incident.id ∧
          ∃ expires ∈ earlier.expires, expires ≤ e.input.1.now := by
  have hlinked := linked_of_chain (chain_of_reaches hr).1
  rcases hlinked incident hi hret row hrow ⟨hsource, hstart, hstop⟩ with hedge | ⟨item, hitem, hlate⟩
  · exact .inl hedge
  · obtain ⟨e, he, hin⟩ := List.mem_flatMap.mp hitem
    obtain ⟨entry, hentry, rfl⟩ := List.mem_map.mp hin
    obtain ⟨new, incidents, haction, hcont⟩ := hlate.appended
    exact .inr ⟨e, he, entry, hentry, new, incidents, haction, hcont, hlate.trusted, hlate.expired⟩

/-- In the run of a protected segment the completed incident is linked to the segment it covers. -/
theorem incident_links_complete_protected :
    ∃ incident ∈ (runFrom roomy protectedCalls).2.ledger.incidents.rows,
      ∃ row ∈ (runFrom roomy protectedCalls).2.ledger.segments.rows,
        incident.state = .complete ∧
        ((⟨incident.id, row.id⟩ : Edge) ∈ (runFrom roomy protectedCalls).2.ledger.protection.rows ∨
          ∃ e ∈ (runFrom roomy protectedCalls).1, ∃ entry ∈ e.output.log, ∃ new incidents,
            entry.action = .insertSegment new incidents ∧ new.Continues row) := by
  have hrun : ∃ incident ∈ (runFrom roomy protectedCalls).2.ledger.incidents.rows,
      ∃ row ∈ (runFrom roomy protectedCalls).2.ledger.segments.rows, incident.state = .complete ∧
        row.source ∈ incident.sources ∧ incident.start < row.stop ∧ row.start < incident.stop := by
    decide +kernel
  obtain ⟨incident, hi, row, hrow, hstate, hsource, hstart, hstop⟩ := hrun
  have hreaches := reaches_runFrom roomy protectedCalls
  refine ⟨incident, hi, row, hrow, hstate, ?_⟩
  have hret : incident.state.retained = true := by
    rw [hstate]
    rfl
  rcases incident_links_complete hreaches hi hret hrow hsource hstart hstop with hedge | hlate
  · exact .inl hedge
  · obtain ⟨e, he, entry, hentry, new, incidents, haction, hcont, -⟩ := hlate
    exact .inr ⟨e, he, entry, hentry, new, incidents, haction, hcont⟩

end Sentinel.Ring
