import Sentinel.Ring.Proofs.EffectsProofs

/-!
# Deletions are permitted

The store calls, `removeSegment` with the loops that use it, and the deletion of incidents. A loop
goes through rows it read before, so its invariant says what earlier deletions left of the ledger it
was read from: `Ledger.Disposes`, or `Ledger.Trims` where no incident is deleted.
-/

namespace Sentinel.Ring

open Program

variable {s : Settings} {c : Ctx} {l l₁ l₂ : Ledger} {P : Ledger → Prop} {segment : UUID} {now : Int}
  {trusted : Bool}

/-! ## What deletions leave -/

@[refl]
theorem Ledger.Disposes.refl (l : Ledger) : l.Disposes l where
  latestClock := rfl
  pendingLoss := rfl
  configuration := rfl
  incidents := fun incident h => ⟨incident, h, .inl rfl⟩
  protection := fun _ h => h
  segments := fun row h => ⟨row, h, .inl rfl⟩

theorem Ledger.Disposes.trans (h₁ : l₁.Disposes l₂) (h₂ : l₂.Disposes l) : l₁.Disposes l where
  latestClock := h₂.latestClock.trans h₁.latestClock
  pendingLoss := h₂.pendingLoss.trans h₁.pendingLoss
  configuration := h₂.configuration.trans h₁.configuration
  incidents := by
    intro incident hi
    obtain ⟨middle, hm, hcase⟩ := h₂.incidents incident hi
    obtain ⟨earlier, he, hcase'⟩ := h₁.incidents middle hm
    refine ⟨earlier, he, ?_⟩
    rcases hcase with rfl | ⟨state, hstate, rfl⟩
    · exact hcase'
    · rcases hcase' with rfl | ⟨state', hstate', rfl⟩
      · exact .inr ⟨state, hstate, rfl⟩
      · exact .inr ⟨state, hstate, rfl⟩
  protection := fun edge h => h₁.protection edge (h₂.protection edge h)
  segments := by
    intro row hrow
    obtain ⟨middle, hm, hcase⟩ := h₂.segments row hrow
    obtain ⟨earlier, he, hcase'⟩ := h₁.segments middle hm
    refine ⟨earlier, he, ?_⟩
    rcases hcase with rfl | rfl
    · exact hcase'
    · rcases hcase' with rfl | rfl
      · exact .inr rfl
      · exact .inr rfl

theorem disposes_setState {l' : Ledger} (hclock : l'.latestClock = l.latestClock)
    (hpending : l'.pendingLoss = l.pendingLoss) (hconf : l'.configuration = l.configuration)
    (hincidents : l'.incidents = l.incidents)
    (hprot : ∀ edge ∈ l'.protection.rows, edge ∈ l.protection.rows)
    (hseg : l'.segments = l.setState segment .deleting) : l.Disposes l' where
  latestClock := hclock
  pendingLoss := hpending
  configuration := hconf
  incidents := fun incident h => ⟨incident, hincidents ▸ h, .inl rfl⟩
  protection := hprot
  segments := by
    intro row hrow
    rw [hseg] at hrow
    obtain ⟨earlier, he, rfl⟩ := Ledger.mem_setState.mp hrow
    refine ⟨earlier, he, ?_⟩
    split_ifs
    · exact .inr rfl
    · exact .inl rfl

theorem disposes_markDeleting : l.Disposes (l.apply (.markDeleting segment)) :=
  disposes_setState rfl rfl rfl rfl (fun _ h => h) rfl

theorem disposes_dropSegment : l.Disposes (l.apply (.dropSegment segment)) where
  latestClock := rfl
  pendingLoss := rfl
  configuration := rfl
  incidents := fun incident h => ⟨incident, h, .inl rfl⟩
  protection := fun _ h => (Table.mem_delete.mp h).1
  segments := fun row h => ⟨row, (Table.mem_delete.mp h).1, .inl rfl⟩

variable {incident : UUID} {row : Segment} {additional : Nat} {ordinary : Int} {allocations : Allocations} {config : RingConfig}
  {rows : List Segment}

theorem disposes_unlink {deleting : Bool} : l.Disposes (l.apply (.unlink incident segment deleting)) := by
  have hprot : ∀ edge ∈ (l.removeEdge incident segment).protection.rows, edge ∈ l.protection.rows :=
    fun _ h => (Ledger.mem_removeEdge.mp h).1
  cases deleting with
  | true => exact disposes_setState rfl rfl rfl rfl hprot rfl
  | false =>
    exact ⟨rfl, rfl, rfl, fun incident h => ⟨incident, h, .inl rfl⟩, hprot,
      fun row h => ⟨row, h, .inl rfl⟩⟩

/-- The incidents after one incident was given a state in which it keeps nothing. -/
theorem disposes_setIncidentState {state : IncidentState} (hstate : state.retained = false) :
    l.Disposes { l with incidents := l.setIncidentState incident state } where
  latestClock := rfl
  pendingLoss := rfl
  configuration := rfl
  incidents := by
    intro row hrow
    obtain ⟨earlier, he, rfl⟩ := Ledger.mem_setIncidentState.mp hrow
    refine ⟨earlier, he, ?_⟩
    split_ifs
    · exact .inr ⟨state, hstate, rfl⟩
    · exact .inl rfl
  protection := fun _ h => h
  segments := fun row h => ⟨row, h, .inl rfl⟩

theorem Ledger.Disposes.untouched (h : l₁.Disposes l) (hrow : row ∈ l.segments.rows) (hstate : row.state ≠ .deleting) :
    row ∈ l₁.segments.rows := by
  obtain ⟨earlier, he, rfl | rfl⟩ := h.segments row hrow
  · exact he
  · exact absurd rfl hstate

/-- A condition that holds of an incident, or once it keeps nothing, goes on holding. -/
theorem Ledger.Disposes.eachIncident (h : l₁.Disposes l) {p : Incident → Prop} (hp : l₁.EachIncident incident p)
    (hdone : ∀ row : Incident, row.state.retained = false → p row) : l.EachIncident incident p := by
  intro row hrow hid
  obtain ⟨earlier, he, rfl | ⟨state, hstate, rfl⟩⟩ := h.incidents row hrow
  · exact hp row he hid
  · exact hdone _ hstate

theorem Ledger.Disposes.reclaims (h : l₁.Disposes l) (hr : Reclaims c l₁ row) : Reclaims c l row where
  trusted := hr.trusted
  settled := h.pendingLoss.trans hr.settled
  beforePre := hr.beforePre
  released := fun k hk => hr.released k (h.configuration ▸ hk)
  proposed := hr.proposed

theorem Ledger.Trims.refl (l : Ledger) : l.Trims l := ⟨.refl l, rfl⟩

theorem Ledger.Trims.trans (h₁ : l₁.Trims l₂) (h₂ : l₂.Trims l) : l₁.Trims l :=
  ⟨h₁.1.trans h₂.1, h₂.2.trans h₁.2⟩

/-! ## Rows that may be removed -/

/-- A row that was read before may be removed, as far as its media may be reclaimed. -/
theorem removable_disposes (hrow : row ∈ l₁.segments.rows) (hr : row.state ≠ .deleting → Reclaims c l₁ row) :
    Removable c (fun l => l₁.Disposes l) row.id where
  marks := fun _ h => h.trans disposes_markDeleting
  drops := fun _ h => h.trans disposes_dropSegment
  reclaims := by
    intro l h later hlater hid hstate
    have heq : later = row := Table.eq_of_key (h.untouched hlater hstate) hrow hid
    subst heq
    exact h.reclaims (hr hstate)

theorem removable_trims (hrow : row ∈ l₁.segments.rows) (hr : row.state ≠ .deleting → Reclaims c l₁ row) :
    Removable c (fun l => l₁.Trims l) row.id where
  marks := fun _ h => ⟨h.1.trans disposes_markDeleting, h.2⟩
  drops := fun _ h => ⟨h.1.trans disposes_dropSegment, h.2⟩
  reclaims := fun l h => (removable_disposes hrow hr).reclaims l h.1

theorem Removable.keeping {own : Segment} (h : Removable c P segment) (hne : own.id ≠ segment) :
    Removable c (fun l => P l ∧ own ∈ l.segments.rows) segment where
  marks := fun l hl => ⟨h.marks l hl.1,
    Ledger.mem_setState.mpr ⟨own, hl.2, if_neg hne⟩⟩
  drops := fun l hl => ⟨h.drops l hl.1, Table.mem_delete.mpr ⟨hl.2, by simpa using hne⟩⟩
  reclaims := fun l hl => h.reclaims l hl.1

theorem Removable.unprotected (h : Removable c P segment) :
    Removable c (fun l => P l ∧ l.isProtected segment = false) segment where
  marks := fun l hl => ⟨h.marks l hl.1, hl.2⟩
  drops := fun l hl => ⟨h.drops l hl.1,
    Ledger.isProtected_mono hl.2 (fun _ hedge _ => (Table.mem_delete.mp hedge).1)
      fun incident hi hst => ⟨incident, hi, rfl, hst⟩⟩
  reclaims := fun l hl => h.reclaims l hl.1

/-! ## The store -/

theorem segmentAllocations_calls : Calls s c segmentAllocations :=
  .bind .storeTurn fun _ => .bind .getMedia fun _ => .pure

theorem listSegments_calls : Calls s c listSegments :=
  .bind .storeTurn fun _ => .bind .getMedia fun _ => .pure

theorem check_calls {requireReserve : Bool} : Calls s c (check s additional requireReserve) :=
  .bind .storeTurn fun _ => .bind .getMedia fun _ => .bind .requireStorage fun _ => .pure

theorem verifySegment_calls {length checksum : Nat} :
    Calls s c (verifySegment s segment length checksum) :=
  .bind .requireStorage fun _ => .bind .storeTurn fun _ => .bind .getMedia fun _ => .pure

theorem deleteSegment_safe (h : ∀ l, P l → Permitted s c l (.deleteFile segment)) :
    Safe s c P (deleteSegment segment) (fun _ => P) fun e l => P l ∧ e.External := by
  refine .bind (Calls.storeTurn P) fun _ => .getMedia fun media => .ite (fun _ => ?_) fun _ => ?_
  · have hact : Safe s c P (act (.deleteFile segment)) (fun _ => P) fun e l => P l ∧ e.External :=
      .act (fun l _ hP => h l hP) (fun _ => nofun) fun l _ hP => hP
    exact .bind hact fun _ => Calls.storeTurn P
  · exact .pure fun _ _ hP => hP

theorem cleanupSegment_safe {failure : Failure} (he : failure.External)
    (h : ∀ l, P l → Permitted s c l (.deleteFile segment)) :
    Safe s c P (cleanupSegment segment failure) (fun _ => P) fun e l => P l ∧ e.External := by
  refine .bind (Calls.require he P) fun _ => ?_
  have hturn : Safe s c P (handle storeTurn fun e =>
      fail (if e = .crash then .crash else .storage .partialCleanupFailed)) (fun _ => P)
      fun e l => P l ∧ e.External := by
    refine .handle (Calls.storeTurn P) fun e => .fail fun l hP => ⟨hP.1, ?_⟩
    split_ifs <;> trivial
  refine .bind hturn fun _ => .getMedia fun media => .bind (Calls.requireStorage P) fun _ => ?_
  have hact : Safe s c P (act (.deleteFile segment)) (fun _ => P) fun e l => P l ∧ e.External :=
    .act (fun l _ hP => h l hP) (fun _ => nofun) fun l _ hP => hP
  exact .bind hact fun _ => .fail fun l hP => ⟨hP, he⟩

theorem writeSegment_safe {data : List UInt8}
    (h : ∀ l, P l → l.EachSegment segment fun row => row.state = .writing) :
    Safe s c P (writeSegment s segment data) (fun _ => P) fun e l => P l ∧ e.External := by
  refine .bind (Calls.requireStorage P) fun _ => .bind (check_calls P) fun _ =>
    .bind (Calls.storeTurn P) fun _ => .getMedia fun media => .bind (Calls.requireStorage P) fun _ => ?_
  have hact : Safe s c P (act (.writeFile segment data (roundUp data.length s.allocationUnit)))
      (fun _ => P) fun e l => P l ∧ e.External :=
    .act (fun l _ hP => h l hP) (fun _ => nofun) fun l _ hP => hP
  refine .bind hact fun _ => ?_
  have hchecks : Calls s c (do
      let _ ← check s 0 true
      let _ ← check s 0 true
      return : RingM Unit) :=
    .bind check_calls fun _ => .bind check_calls fun _ => .pure
  refine .handle (hchecks P) fun e => .start fun l' _ _ hP => ?_
  exact (cleanupSegment_safe hP.2 fun l hl => .inr (h l hl)).strengthen fun l _ heq => heq ▸ hP.1

/-! ## Removal -/

theorem removeSegment_safe (h : Removable c P segment) :
    Safe s c P (removeSegment segment) (fun _ => P)
      fun e l => P l ∧ (e.External ∨ l.isProtected segment = true) := by
  have hexternal : ∀ (e : Failure) (l : Ledger), P l ∧ e.External →
      P l ∧ (e.External ∨ l.isProtected segment = true) := fun e l h => ⟨h.1, .inl h.2⟩
  -- once the row is marked it stays unprotected and under deletion until it is dropped
  let M : Ledger → Prop := fun l =>
    P l ∧ l.isProtected segment = false ∧ l.EachSegment segment fun row => row.state = .deleting
  refine .getLedger fun l' _ _ hP => ?_
  refine .bind (Q := fun _ l => l = l' ∧ l'.isProtected segment = false) (.require ?_) fun _ => ?_
  · rintro l rfl hprot
    exact ⟨hP, .inr (by simpa using hprot)⟩
  refine .bind (Q := fun _ => M) (.transact ?_ ?_ (fun _ => nofun) ?_) fun _ => ?_
  · rintro e l he ⟨rfl, -⟩
    exact ⟨hP, .inl he⟩
  · rintro l - ⟨rfl, hprot⟩
    exact ⟨hprot, h.reclaims l hP⟩
  · rintro l - ⟨rfl, hprot⟩
    refine ⟨h.marks l hP, hprot, fun row hrow hid => ?_⟩
    obtain ⟨earlier, he, rfl⟩ := Ledger.mem_setState.mp hrow
    split_ifs with heq
    · rfl
    · rw [if_neg heq] at hid
      exact absurd hid heq
  refine .bind (Q := fun _ => M) ?_ fun _ => ?_
  · have hdelete : Safe s c M (deleteSegment segment) (fun _ => M) fun e l => M l ∧ e.External :=
      deleteSegment_safe fun l hM => .inl hM.2
    exact hdelete.conseq (fun _ _ h => h) (fun _ _ _ h => h) fun e l h => ⟨h.1.1, .inl h.2⟩
  · exact .transact (fun e l he hM => ⟨hM.1, .inl he⟩) (fun l _ hM => hM.2) (fun _ => nofun)
      fun l _ hM => h.drops l hM.1

theorem removeSegment_keeps (h : Removable c P segment) :
    Safe s c P (removeSegment segment) (fun _ => P) fun _ => P :=
  (removeSegment_safe h).conseq (fun _ _ h => h) (fun _ _ _ h => h) fun _ _ h => h.1

theorem trimRows_safe {cutoff : Int} (h : ∀ row ∈ rows, Removable c P row.id) :
    Safe s c P (trimRows config allocations cutoff ordinary rows) (fun _ => P) fun _ => P := by
  induction rows generalizing ordinary with
  | nil => exact .pure fun _ _ hP => hP
  | cons row rest ih =>
    refine .ite (fun _ => .pure fun _ _ hP => hP) fun _ => ?_
    exact .bind (removeSegment_keeps (h row List.mem_cons_self)) fun _ =>
      ih fun row hrow => h row (List.mem_cons_of_mem _ hrow)

theorem roomRows_safe {needed value : Int} (h : ∀ row ∈ rows, Removable c P row.id) :
    Safe s c P (roomRows allocations needed value ordinary rows) (fun _ => P) fun _ => P := by
  induction rows generalizing ordinary with
  | nil => exact .pure fun _ _ hP => hP
  | cons row rest ih =>
    refine .ite (fun _ => .pure fun _ _ hP => hP) fun _ => ?_
    exact .bind (removeSegment_keeps (h row List.mem_cons_self)) fun _ =>
      ih fun row hrow => h row (List.mem_cons_of_mem _ hrow)

theorem fits_reads : Reads s c (fits s additional) :=
  .handle (.bind check_calls.reads fun _ => .pure) fun _ => .ite .pure .fail

theorem freeRows_safe (h : ∀ row ∈ rows, Removable c P row.id) :
    Safe s c P (freeRows s additional rows) (fun _ => P) fun _ => P := by
  induction rows with
  | nil => exact .bind (check_calls.reads P) fun _ => .pure fun _ _ hP => hP
  | cons row rest ih =>
    refine .bind (fits_reads P) fun free => .ite (fun _ => .pure fun _ _ hP => hP) fun _ => ?_
    exact .bind (removeSegment_keeps (h row List.mem_cons_self)) fun _ =>
      ih fun row hrow => h row (List.mem_cons_of_mem _ hrow)

theorem reclaimRows_safe {needed : Nat} (h : ∀ row ∈ rows, Removable c P row.id) :
    Safe s c P (reclaimRows s needed rows) (fun _ => P) fun _ => P := by
  induction rows with
  | nil => exact .pure fun _ _ hP => hP
  | cons row rest ih =>
    refine .bind (check_calls.reads P) fun free => .ite (fun _ => .pure fun _ _ hP => hP) fun _ => ?_
    exact .bind (removeSegment_keeps (h row List.mem_cons_self)) fun _ =>
      ih fun row hrow => h row (List.mem_cons_of_mem _ hrow)

/-! ## Trimming -/

/-- The trust and the time that a part of a call is run with are those of the call. -/
def Ctx.Grants (c : Ctx) (now : Int) (trusted : Bool) : Prop :=
  trusted = true → c.trusted = true ∧ now = c.now

theorem Ctx.grants_false : c.Grants now false :=
  (absurd · Bool.false_ne_true)

/-- Reclaimable rows may be removed under a configuration that is the one in force, and the proposed
one if there is one. -/
theorem reclaims_of_reclaimable (hc : c.Grants now trusted) (ht : trusted = true) (hrow : row ∈ l.selectedReclaimable now config)
    (hforce : ∀ k ∈ l.configuration, k.config = config) (hprop : ∀ proposed ∈ c.proposed, proposed = config) :
    Reclaims c l row := by
  obtain ⟨hrec, hreleases⟩ := Ledger.mem_selectedReclaimable.mp hrow
  obtain ⟨hpending, -, hpre, -, -⟩ := Ledger.mem_reclaimable.mp hrec
  obtain ⟨htrusted, rfl⟩ := hc ht
  refine ⟨htrusted, hpending, hpre, fun k hk => ?_, fun proposed hp => ?_⟩
  · rwa [hforce k hk]
  · rwa [hprop proposed hp]

theorem trim_safe (l₁ : Ledger) (hc : c.Grants now trusted)
    (hprop : ∀ proposed ∈ c.proposed, ∀ k ∈ l₁.configuration, proposed = k.config) :
    Safe s c (fun l => l₁.Trims l) (trim now trusted) (fun _ l => l₁.Trims l) fun _ _ => True := by
  refine .getMemory fun m => ?_
  have hskip : Safe s c (fun l => l₁.Trims l ∧ m.configuration = l.configuration)
      (pure () : RingM Unit) (fun _ l => l₁.Trims l) fun _ _ => True := .pure fun _ _ h => h.1
  cases htrusted : trusted with
  | false => exact hskip
  | true =>
    cases hconf : m.configuration with
    | none =>
      rw [hconf] at hskip
      exact hskip
    | some k =>
      refine .bind (segmentAllocations_calls.reads.safe fun _ _ _ => trivial) fun allocations => ?_
      refine .getLedger fun l' _ _ hl' => ?_
      obtain ⟨htrims, hk⟩ := hl'
      have hsame : ∀ k' ∈ l'.configuration, k'.config = k.config := by
        intro k' hk'
        rw [← hk] at hk'
        exact congrArg Configuration.config (Option.some.inj hk').symm
      have hremovable : ∀ row ∈ l'.selectedReclaimable now k.config,
          Removable c (fun l => l'.Trims l) row.id := by
        intro row hrow
        have hmem := (Ledger.mem_reclaimable.mp (Ledger.mem_selectedReclaimable.mp hrow).1).2.1
        refine removable_trims hmem fun _ => reclaims_of_reclaimable hc htrusted hrow hsame ?_
        intro proposed hp
        have hk₁ : k ∈ l₁.configuration := by
          rw [← htrims.1.configuration, ← hk]
          rfl
        exact hprop proposed hp k hk₁
      exact (trimRows_safe hremovable).conseq (fun l _ h => h ▸ .refl l')
        (fun _ l _ h => htrims.trans h) fun _ _ _ => trivial

/-! ## Deleting incidents -/

theorem reclaims_of_not_owned {m : Memory} (hl : l.Valid) (hrow : ∃ other, other ∈ l.segments.rows)
    (hm : m.configuration = l.configuration) (hc : c.Grants now trusted) (hprop : c.proposed = none)
    (hown : ordinaryOwned l m row now trusted = false) : Reclaims c l row := by
  unfold ordinaryOwned at hown
  rw [Bool.or_eq_false_iff] at hown
  obtain ⟨hpending, hconf⟩ := hown
  rw [hm] at hconf
  cases hk : l.configuration with
  | none =>
    obtain ⟨other, hother⟩ := hrow
    simp [(hl.configured hk).1] at hother
  | some k =>
    simp only [hk, Option.any_some, Bool.or_eq_false_iff, Bool.not_eq_false', decide_eq_false_iff_not,
      not_lt] at hconf
    obtain ⟨htrusted, rfl⟩ := hc hconf.1
    have hpre := pre_le_horizonUs k.config k.profiles
    refine ⟨htrusted, hpending, by omega, fun k' hk' => ?_, fun proposed hp => ?_⟩
    · obtain rfl : k = k' := Option.some.inj (hk.symm.trans hk')
      exact releases_of_horizon hconf.2
    · simp [hprop] at hp

theorem unlinkSegment_safe (hl₁ : l₁.Valid) (hrow : row ∈ l₁.segments.rows)
    (hgone : l₁.EachIncident incident fun row => row.state.retained = false) (hc : c.Grants now trusted)
    (hprop : c.proposed = none) : Safe s c (fun l => l₁.Disposes l) (unlinkSegment incident now trusted row)
      (fun _ l => l₁.Disposes l) fun e _ => e.External := by
  refine .getLedger fun l' hl' _ hdisp => .getMemory fun m => ?_
  -- what the ring does not own could be reclaimed when the loop began
  have hreclaims : m.configuration = l'.configuration →
      ordinaryOwned l' m row now trusted = false → Reclaims c l₁ row := by
    intro hm hown
    refine reclaims_of_not_owned (m := m) hl₁ ⟨row, hrow⟩ (hm.trans hdisp.configuration) hc hprop ?_
    unfold ordinaryOwned at hown ⊢
    rwa [← hdisp.pendingLoss]
  refine .bind (.ledgerTurn fun e _ he _ => he) fun _ => ?_
  refine .bind (Q := fun _ l => l₁.Disposes l ∧ m.configuration = l'.configuration) (.act ?_
    (fun _ => nofun) ?_) fun _ => .getLedger fun l'' _ _ hl'' => ?_
  · rintro l - ⟨rfl, hm⟩
    refine ⟨hdisp.eachIncident hgone fun _ h => h, fun hdel => ?_⟩
    rw [Bool.and_eq_true, Bool.not_eq_true', Bool.not_eq_true'] at hdel
    refine ⟨hdel.1, ?_⟩
    exact (removable_disposes hrow fun _ => hreclaims hm hdel.2).reclaims l hdisp
  · rintro l - ⟨rfl, hm⟩
    exact ⟨hdisp.trans disposes_unlink, hm⟩
  · obtain ⟨hdisp', hm⟩ := hl''
    refine .ite (fun hcond => ?_) fun _ => .pure fun l _ h => h ▸ hdisp'
    have hremovable := (removable_disposes hrow fun _ => hreclaims hm hcond.2).unprotected
    refine (removeSegment_safe hremovable).conseq (fun l _ h => h ▸ ⟨hdisp', hcond.1⟩)
      (fun _ l _ h => h.1) fun e l h => ?_
    rcases h.2 with he | hprot
    · exact he
    · rw [h.1.2] at hprot
      exact absurd hprot (by decide)

theorem deleteRetained_safe (hcond : l₁.EachIncident incident (Dismisses c)) (hc : c.Grants now trusted)
    (hprop : c.proposed = none) : Safe s c (fun l => l₁.Disposes l ∧ l.EachIncident incident fun row => row.state ≠ .deleted)
      (deleteRetained incident now trusted) (fun _ l => l₁.Disposes l) fun e _ => e.External := by
  refine .bind (Q := fun _ l => l₁.Disposes l ∧
    l.EachIncident incident fun row => row.state.retained = false)
    (.transact (fun e _ he _ => he) (fun l _ h => ?_) (fun _ => nofun) fun l _ h => ?_) fun _ => ?_
  · have hdismiss : l.EachIncident incident (Dismisses c) := h.1.eachIncident hcond fun _ h => .inl h
    exact fun row hrow hid => ⟨h.2 row hrow hid, hdismiss row hrow hid⟩
  · refine ⟨h.1.trans (disposes_setIncidentState rfl), fun row hrow hid => ?_⟩
    obtain ⟨earlier, he, rfl⟩ := Ledger.mem_setIncidentState.mp hrow
    split_ifs with heq
    · rfl
    · rw [if_neg heq] at hid
      exact absurd hid heq
  refine .getLedger fun l₂ hl₂ _ hl₂' => ?_
  obtain ⟨hdisp, hgone⟩ := hl₂'
  have hloop : Safe s c (fun l => l₂.Disposes l ∧ ∀ row ∈ l₂.linked incident, row ∈ l₂.segments.rows)
      (forEach (unlinkSegment incident now trusted) (l₂.linked incident))
      (fun _ l => l₂.Disposes l ∧ ∀ row ∈ ([] : List Segment), row ∈ l₂.segments.rows)
      fun e _ => e.External := by
    refine Safe.forEach (I := fun rest l => l₂.Disposes l ∧ ∀ row ∈ rest, row ∈ l₂.segments.rows)
      (fun row rest => .start fun l' _ _ hl' => ?_) (l₂.linked incident)
    have hrest : ∀ row ∈ rest, row ∈ l₂.segments.rows := fun row hrow =>
      hl'.2 row (List.mem_cons_of_mem _ hrow)
    exact (unlinkSegment_safe hl₂ (hl'.2 row List.mem_cons_self) hgone hc hprop).conseq
      (fun l _ h => h ▸ hl'.1) (fun _ l _ h => ⟨h, hrest⟩) fun _ _ h => h
  refine .bind (hloop.strengthen fun l _ h => ?_) fun _ =>
    .transact (fun e _ he _ => he) (fun l _ h => ?_) (fun _ => nofun) fun l _ h => ?_
  · subst h
    exact ⟨.refl l, fun row hrow => (Ledger.mem_linked.mp hrow).1⟩
  · exact h.1.eachIncident hgone fun _ h => h
  · exact hdisp.trans (h.1.trans (disposes_setIncidentState rfl))

theorem deleteIncidentAt_safe (l₁ : Ledger) (hcond : l₁.EachIncident incident (Dismisses c)) (hc : c.Grants now trusted)
    (hprop : c.proposed = none) : Safe s c (fun l => l₁.Disposes l) (deleteIncidentAt incident now trusted)
      (fun _ l => l₁.Disposes l) fun e _ => e.External := by
  refine .getLedger fun l' _ _ hdisp => .ite (fun hfind => ?_) fun _ => .pure fun l _ h => h ▸ hdisp
  refine (deleteRetained_safe hcond hc hprop).strengthen fun l _ h => ⟨h ▸ hdisp, ?_⟩
  subst h
  rintro row hrow rfl
  rw [Table.find?_of_mem hrow] at hfind
  simpa using hfind

theorem deleteIncidents_safe {rows : List Incident} (l₁ : Ledger)
    (hcond : ∀ row ∈ rows, l₁.EachIncident row.id (Dismisses c))
    (hc : c.Grants now trusted) (hprop : c.proposed = none) :
    Safe s c (fun l => l₁.Disposes l) (forEach (fun row => deleteIncidentAt row.id now trusted) rows)
      (fun _ l => l₁.Disposes l) fun e _ => e.External := by
  induction rows with
  | nil => exact .pure fun _ _ h => h
  | cons row rest ih =>
    exact .bind (deleteIncidentAt_safe l₁ (hcond row List.mem_cons_self) hc hprop) fun _ =>
      ih fun row hrow => hcond row (List.mem_cons_of_mem _ hrow)

end Sentinel.Ring
