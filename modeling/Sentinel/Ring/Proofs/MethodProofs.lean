import Sentinel.Ring.Proofs.DiskProofs

/-!
# Every public method makes only permitted changes

`configure`, `append`, the observation of the connection, the deletion of incidents and the
constructor, and from them the one triple of `program`: whatever a call does, it does by permitted
changes.
-/

namespace Sentinel.Ring

open Program

variable {s : Settings} {c : Ctx} {l l₁ l₂ : Ledger} {P : Ledger → Prop} {now : Int} {trusted : Bool}

/-! ## Configuration -/

variable {rows : List Segment} {k : Configuration} {config : RingConfig} {profiles : Profiles} {claimed : Bool}
  {profile : SegmentProfile} {start stop : Int} {length : Nat} {source incident : UUID} {own : Segment} {data : List UInt8}

theorem mem_of_mem_fifoEligible {allocations : Allocations} {cutoff excess : Int} {row : Segment}
    (h : row ∈ fifoEligible allocations cutoff excess rows) : row ∈ rows := by
  induction rows generalizing excess with
  | nil => exact h
  | cons first rest ih =>
    unfold fifoEligible at h
    split_ifs at h with hstop
    · simp at h
    · rcases List.mem_cons.mp h with rfl | h
      · exact List.mem_cons_self
      · exact List.mem_cons_of_mem _ (ih h)

theorem currentReclaimable_safe : Safe s c (fun l => l = l₁) (currentReclaimable k now)
      (fun rows l => l = l₁ ∧ ∀ row ∈ rows, row ∈ l₁.selectedReclaimable now k.config) Fails := by
  unfold currentReclaimable
  cases k.config.mode with
  | duration =>
    refine .getLedger fun l' _ _ hl' => ?_
    subst hl'
    exact .pure fun l _ h => ⟨h, fun row hrow => hrow⟩
  | capacity =>
    refine .bind segmentAllocations_calls.reads.fails fun allocations => .getLedger fun l' _ _ hl' => ?_
    subst hl'
    exact .pure fun l _ h => ⟨h, fun row hrow => mem_of_mem_fifoEligible hrow⟩

/-- What `configure` may remove before it commits is selected by the proposed configuration and by the
one in force. -/
theorem configurationReclaimable_safe (hc : c.Grants now true) (hprop : ∀ proposed ∈ c.proposed, proposed = config) :
    Safe s c (fun l => l = l₁) (configurationReclaimable now config)
      (fun rows l => l = l₁ ∧ ∀ row ∈ rows, row ∈ l₁.segments.rows ∧ Reclaims c l₁ row) Fails := by
  refine .getLedger fun l' _ _ hl' => .getMemory fun m => ?_
  subst hl'
  have hmem : ∀ row ∈ l'.selectedReclaimable now config, row ∈ l'.segments.rows := fun row hrow =>
    (Ledger.mem_reclaimable.mp (Ledger.mem_selectedReclaimable.mp hrow).1).2.1
  -- the proposed configuration decides everything but the release by the one in force
  have hreclaims : ∀ row ∈ l'.selectedReclaimable now config,
      (∀ k ∈ l'.configuration, k.config.releases now row.stop) → Reclaims c l' row := by
    intro row hrow hforce
    obtain ⟨hrec, hreleases⟩ := Ledger.mem_selectedReclaimable.mp hrow
    obtain ⟨hpending, -, hpre, -, -⟩ := Ledger.mem_reclaimable.mp hrec
    obtain ⟨htrusted, rfl⟩ := hc rfl
    exact ⟨htrusted, hpending, hpre, hforce, fun proposed hp => hprop proposed hp ▸ hreleases⟩
  cases hm : m.configuration with
  | none =>
    refine .pure fun l _ h => ⟨h.1, fun row hrow => ⟨hmem row hrow, hreclaims row hrow ?_⟩⟩
    obtain ⟨rfl, hk⟩ := h
    simp [← hk]
  | some k =>
    refine .start fun l'' _ _ hl'' => ?_
    obtain ⟨rfl, hk⟩ := hl''
    refine .bind currentReclaimable_safe fun current => .pure fun l _ h => ⟨h.1, fun row hrow => ?_⟩
    obtain ⟨hsel, hany⟩ := List.mem_filter.mp hrow
    obtain ⟨allowed, hallowed, hid⟩ := List.any_eq_true.mp hany
    refine ⟨hmem row hsel, hreclaims row hsel fun k' hk' => ?_⟩
    obtain ⟨hrec, hreleases⟩ := Ledger.mem_selectedReclaimable.mp (h.2 allowed hallowed)
    obtain rfl : allowed = row :=
      Table.eq_of_key (Ledger.mem_reclaimable.mp hrec).2.1 (hmem row hsel) (by simpa using hid)
    obtain rfl : k = k' := Option.some.inj (hk.trans hk')
    exact hreleases

theorem selectedTargetFits_reads : Reads s c (selectedTargetFits s config profiles) :=
  .bind .lift fun _ => .bind segmentAllocations_calls.reads fun _ => .bind .getLedger fun _ =>
    .bind check_calls.reads fun _ => .require

theorem capacityTransitionFits_reads : Reads s c (capacityTransitionFits s config profiles now trusted) := by
  unfold capacityTransitionFits
  cases config.mode with
  | duration => exact .pure
  | capacity =>
    exact .bind segmentAllocations_calls.reads fun _ => .bind .getLedger fun _ => .bind .lift fun _ =>
      .require

theorem durationTransitionFits_reads : Reads s c (durationTransitionFits s config profiles now trusted) := by
  unfold durationTransitionFits
  cases config.mode with
  | capacity => exact .pure
  | duration =>
    exact .bind segmentAllocations_calls.reads fun _ => .bind .getLedger fun _ => .bind .lift fun _ =>
      .bind check_calls.reads fun _ => .require

/-- The ring may be configured: no loss is pending and no incident is active. -/
def Idle (l : Ledger) : Prop := l.pendingLoss = false ∧ l.activeIncidents = []

theorem admitConfiguration_safe {mapping : Profiles} (hc : c.Grants now trusted)
    (hprop : ∀ proposed ∈ c.proposed, proposed = config) : Safe s c Idle (admitConfiguration s config mapping now trusted)
      (fun admitted l => Idle l ∧ ∀ row ∈ admitted.2, row ∈ l.segments.rows ∧ Reclaims c l row)
      Fails := by
  refine .bind Reads.lift.fails fun _ => .bind Reads.require.fails fun _ =>
    .bind Reads.require.fails fun _ => .bind Reads.lift.fails fun _ =>
    .bind (budget_safe fun l changes h => h) fun b => ?_
  refine .bind (Q := fun rows l => Idle l ∧ ∀ row ∈ rows, row ∈ l.segments.rows ∧ Reclaims c l row)
    (.ite (fun ht => .start fun l' _ _ hidle => ?_) fun _ => ?_) fun reclaimable => ?_
  · refine (configurationReclaimable_safe (fun _ => hc ht) hprop).weaken fun rows l _ h => ?_
    obtain ⟨rfl, hrows⟩ := h
    exact ⟨hidle, hrows⟩
  · exact .pure fun l _ h => ⟨h, fun row hrow => absurd hrow List.not_mem_nil⟩
  · exact .bind segmentAllocations_calls.reads.fails fun _ => .bind Reads.require.fails fun _ =>
      .bind selectedTargetFits_reads.fails fun _ => .bind capacityTransitionFits_reads.fails fun _ =>
      .bind durationTransitionFits_reads.fails fun _ =>
      .bind (requireCapacity_safe.weaken fun _ _ _ h => h.1) fun _ => .pure fun _ _ h => h

theorem commitConfiguration_safe (hperm : ∀ l, P l → Permitted s c l (.storeConfiguration k)) :
    Safe s c P (commitConfiguration k) (fun _ l => l.configuration = some k) Fails := by
  refine .bind (Q := fun _ => P) (.ledgerTurn fun _ _ _ _ => trivial) fun _ => ?_
  intro J l₀ hJ w hw
  obtain ⟨hP, hsound⟩ := hw
  have hp := hperm w.ledger hP
  exact ⟨rfl, valid_apply hsound.valid hp, timely_apply hsound.timely hp,
    hJ w.ledger _ hsound.valid hsound.frame hp, rfl, .cons w.media hsound.trace hp⟩

theorem configureRing_safe {profiles : List SegmentProfile} (hnow : now = c.now) (hclaimed : claimed = c.claimed)
    (hprop : c.proposed = some config) :
    Safe s c Anything (configureRing s config profiles now claimed) (fun _ => Anything) Fails := by
  have hproposed : ∀ proposed ∈ c.proposed, proposed = config := by
    intro proposed hp
    rw [hprop] at hp
    exact (Option.some.inj hp).symm
  refine .getLedger fun l' _ htimely _ => ?_
  have hread : clockRead l' now claimed = c.trusted := clockRead_claimed hnow hclaimed l' htimely
  dsimp only
  rw [hread]
  refine .bind (Q := fun _ l => l = l' ∧ l'.pendingLoss = false) (.require fun _ _ _ => trivial)
    fun _ => ?_
  refine .bind (Q := fun _ l => Idle l) ((Safe.require fun _ _ _ => trivial).weaken ?_) fun _ => ?_
  · rintro _ l - ⟨⟨rfl, hpending⟩, hactive⟩
    exact ⟨hpending, List.isEmpty_iff.mp hactive⟩
  refine .bind (admitConfiguration_safe (grants_trusted hnow) hproposed) fun (required, reclaimable) => ?_
  refine .start fun l₁ _ _ hl₁ => ?_
  obtain ⟨hidle, hrows⟩ := hl₁
  have hremovable : ∀ row ∈ reclaimable, Removable c (fun l => l₁.Trims l) row.id := fun row hrow =>
    removable_trims (hrows row hrow).1 fun _ => (hrows row hrow).2
  refine .bind (Q := fun _ l => Idle l) ((reclaimRows_safe hremovable).conseq (fun l _ h => h ▸ .refl l₁)
    (fun _ l _ h => ?_) fun _ _ _ => trivial) fun _ => ?_
  · refine ⟨h.1.pendingLoss.trans hidle.1, ?_⟩
    unfold Ledger.activeIncidents
    rw [h.2]
    exact hidle.2
  refine .bind check_calls.reads.fails fun _ => .bind selectedTargetFits_reads.fails fun _ =>
    .bind durationTransitionFits_reads.fails fun _ => .getLedger fun l₂ _ _ hidle₂ =>
    .getMemory fun m => ?_
  refine .bind (commitConfiguration_safe (k := ⟨config, profileMap profiles,
    historyAfter l₂ m profiles⟩) ?_) fun _ => .start fun l₃ _ _ hl₃ => ?_
  · rintro l ⟨rfl, -⟩
    exact ⟨hprop, hidle₂.1, hidle₂.2⟩
  refine .bind (Q := fun _ => Anything) ((trim_safe l₃ (grants_trusted hnow) ?_).conseq
    (fun l _ h => h ▸ .refl l₃) (fun _ _ _ _ => trivial) fun _ _ _ => trivial) fun _ => statusAt_safe
  intro proposed hp k hk
  obtain rfl := Option.some.inj (hl₃.symm.trans hk)
  exact hproposed proposed hp

/-! ## Appending -/

theorem refuse_safe {α : Type} {state : RingState} {reason : StatusReason} {refusal : Refusal} :
    Safe s c P (refuse state reason refusal : RingM α) (fun _ _ => False) Fails :=
  .bind .setStatus fun _ => .fail fun _ _ => trivial

theorem requireOr_safe {cond : Prop} [Decidable cond] {refusal : RingM Unit}
    {E : Failure → Ledger → Prop} (h : Safe s c P refusal (fun _ _ => False) E) :
    Safe s c P (requireOr cond refusal) (fun _ l => P l ∧ cond) E :=
  .ite (fun hc => .pure fun _ _ hP => ⟨hP, hc⟩) fun _ => h.weaken fun _ _ _ h => h.elim

/-- The interval of a new segment fits its profile, its call and the earlier rows of its source. -/
structure Follows (c : Ctx) (l : Ledger) (source : UUID) (profile : SegmentProfile) (start stop : Int) :
    Prop where
  cadence : stop - start = (profile.segmentDurationUs : Int)
  ended : stop ≤ c.now
  follows : ∀ earlier ∈ l.segments.rows, earlier.source = source →
    (c.trusted = true → earlier.clockTrusted = true) → earlier.stop ≤ start

theorem checkSegment_safe (hnow : now = c.now) (hprop : c.proposed = none) :
    Safe s c P (checkSegment source profile start stop length now c.trusted)
      (fun _ l => P l ∧ Follows c l source profile start stop) Fails := by
  refine .bind (requireOr_safe refuse_safe) fun _ => .getLedger fun l' _ _ hl' => ?_
  obtain ⟨hP, hcadence, hended, -, -⟩ := hl'
  refine .bind (requireOr_safe ?_) fun _ => (requireOr_safe refuse_safe).weaken ?_
  · exact .bind ((tickAt_safe Ctx.grants_false (absurd · Bool.false_ne_true) hprop).strengthen fun _ _ _ => trivial) fun _ =>
      refuse_safe
  · rintro _ l - ⟨⟨rfl, -⟩, hprevious⟩
    refine ⟨hP, hcadence, hnow ▸ hended, fun earlier hearlier hsource htrust => ?_⟩
    have hp : (!c.trusted || earlier.clockTrusted) = true := by
      cases ht : c.trusted with
      | false => rfl
      | true => exact htrust ht
    obtain ⟨last, hlast, hle⟩ := Ledger.le_maxEnd
      (p := fun row => !c.trusted || row.clockTrusted) hearlier hsource hp
    rw [hlast] at hprevious
    have hstart : last ≤ start := by simpa using hprevious
    exact hle.trans hstart

theorem configuredSource_safe : Safe s c P (configuredSource source) (fun r l => P l ∧ l.configuration = some r.1 ∧
      r.1.profiles.get? source = some r.2) Fails := by
  refine .bind configured_safe fun k => ?_
  cases hget : k.profiles.get? source with
  | none => exact .fail fun _ _ => trivial
  | some profile => exact .pure fun l _ h => ⟨h.1, h.2, hget⟩

theorem makeRoom_safe (hc : c.Grants now trusted) (hprop : c.proposed = none) (hmode : config.mode = .capacity)
    (hforce : ∀ k ∈ l₁.configuration, k.config = config) :
    Safe s c (fun l => l₁.Trims l) (makeRoom s config length now trusted) (fun _ l => l₁.Trims l)
      Fails := by
  refine .bind segmentAllocations_calls.reads.fails fun allocations => .getLedger fun l' _ _ htrims => ?_
  have hremovable : ∀ row ∈ (if trusted = true then l'.reclaimable now else []),
      Removable c (fun l => l'.Trims l) row.id := by
    intro row hrow
    split_ifs at hrow with ht
    · refine removable_trims (Ledger.mem_reclaimable.mp hrow).2.1 fun _ => ?_
      refine reclaims_of_reclaimable hc ht (Ledger.mem_selectedReclaimable.mpr ⟨hrow, ?_⟩)
        (fun k hk => hforce k (htrims.1.configuration ▸ hk)) fun proposed hp => ?_
      · rw [RingConfig.releases, hmode]
        rintro ⟨⟩
      · simp [hprop] at hp
    · simp at hrow
  refine .bind (Q := fun _ l => l₁.Trims l) ((roomRows_safe hremovable).conseq (fun l _ h => h ▸ .refl l')
    (fun _ l _ h => htrims.trans h) fun _ _ _ => trivial) fun ordinary => ?_
  exact (requireOr_safe refuse_safe).weaken fun _ _ _ h => h.1

/-- Passes over reclaimable media do not take away what an admission was decided on. -/
theorem Follows.trims (h : Follows c l₁ source profile start stop) (htrims : l₁.Trims l) :
    Follows c l source profile start stop where
  cadence := h.cadence
  ended := h.ended
  follows := by
    intro row hrow hsource htrust
    obtain ⟨earlier, he, rfl | rfl⟩ := htrims.1.segments row hrow
    · exact h.follows row he hsource htrust
    · exact h.follows earlier he hsource htrust

theorem insertSegment_safe (row : Segment) {incidents : List Incident} (hk : l₁.configuration = some k)
    (hprofile : k.profiles.get? row.source = some profile) (hfollows : Follows c l₁ row.source profile row.start row.stop)
    (hrec : c.trusted = true → l₁.latestClock = some c.now) (hwriting : row.state = .writing)
    (htrust : row.clockTrusted = c.trusted)
    (hincidents : incidents = l₁.incidentsFor row.source row.start row.stop c.now c.trusted) :
    Safe s c (fun l => l₁.Trims l) (insertSegment row incidents)
      (fun _ l => row ∈ l.segments.rows ∧ l.configuration = some k) Fails := by
  refine .bind (.ledgerTurn fun _ _ _ _ => trivial) fun _ => .getLedger fun l' _ _ htrims =>
    .bind (.require fun _ _ _ => trivial) fun _ => .act ?_ (fun _ => nofun) ?_
  · rintro l - ⟨rfl, hfree, -⟩
    have hconf : l.configuration = some k := htrims.1.configuration.trans hk
    refine ⟨⟨hfree, hwriting, htrust, hfollows.ended, fun ht => htrims.1.latestClock.trans (hrec ht),
      ⟨k, hconf, profile, hprofile, hfollows.cadence⟩, (hfollows.trims htrims).follows⟩, ?_⟩
    rw [hincidents]
    unfold Ledger.incidentsFor
    rw [htrims.2]
  · rintro l - ⟨rfl, hfree, -⟩
    exact ⟨Table.mem_insert.mpr (.inr ⟨rfl, hfree⟩), htrims.1.configuration.trans hk⟩

/-- The segment under admission has its row, in state `writing`. -/
def Writes (own : Segment) (config : RingConfig) (l : Ledger) : Prop :=
  own ∈ l.segments.rows ∧ ∀ k ∈ l.configuration, k.config = config

theorem Writes.eachSegment (h : Writes own config l) (hwriting : own.state = .writing) :
    l.EachSegment own.id fun row => row.state = .writing := by
  intro row hrow hid
  obtain rfl : row = own := Table.eq_of_key hrow h.1 hid
  exact hwriting

theorem freeForWrite_safe (hwriting : own.state = .writing) (hc : c.Grants now trusted) (hprop : c.proposed = none) :
    Safe s c (Writes own config) (freeForWrite s config length now trusted)
      (fun _ => Writes own config) fun _ => Writes own config := by
  refine .getLedger fun l' _ _ hw => ?_
  have hremovable : ∀ row ∈ (if trusted = true then l'.selectedReclaimable now config else []),
      Removable c (fun l => l'.Trims l ∧ own ∈ l.segments.rows) row.id := by
    intro row hrow
    split_ifs at hrow with ht
    · obtain ⟨-, hmem, -, hstate, -⟩ :=
        Ledger.mem_reclaimable.mp (Ledger.mem_selectedReclaimable.mp hrow).1
      have hne : own.id ≠ row.id := by
        intro heq
        obtain rfl : own = row := Table.eq_of_key hw.1 hmem heq
        exact hstate hwriting
      refine (removable_trims hmem fun _ => reclaims_of_reclaimable hc ht hrow hw.2 ?_).keeping hne
      intro proposed hp
      simp [hprop] at hp
    · simp at hrow
  have hwrites : ∀ l, l'.Trims l ∧ own ∈ l.segments.rows → Writes own config l := fun l h =>
    ⟨h.2, fun k hk => hw.2 k (h.1.1.configuration ▸ hk)⟩
  refine (freeRows_safe hremovable).conseq (fun l _ h => ?_) (fun _ l _ h => hwrites l h)
    fun _ l h => hwrites l h
  subst h
  exact ⟨.refl l, hw.1⟩

theorem discardSegment_safe {code : StorageCode} (hwriting : own.state = .writing) :
    Safe s c (Writes own config) (discardSegment own.id code) (fun _ _ => False)
      fun _ => Writes own config := by
  have hdelete : Safe s c (Writes own config) (deleteSegment own.id) (fun _ => Writes own config)
      fun _ => Writes own config :=
    (deleteSegment_safe fun l h => .inr (h.eachSegment hwriting)).conseq (fun _ _ h => h)
      (fun _ _ _ h => h) fun _ _ h => h.1
  exact .bind hdelete fun _ => .fail fun _ h => h

theorem storeSegment_safe {ordinary : Bool} (hwriting : own.state = .writing) (hc : c.Grants now trusted)
    (hprop : c.proposed = none) : Safe s c (Writes own config) (storeSegment s config own.id data now trusted ordinary)
      (fun allocated l => Writes own config l ∧ 512 ≤ allocated) fun _ => Writes own config := by
  have hwrite : Safe s c (Writes own config) (writeSegment s own.id data) (fun _ => Writes own config)
      fun _ => Writes own config :=
    (writeSegment_safe fun l h => h.eachSegment hwriting).conseq (fun _ _ h => h)
      (fun _ _ _ h => h) fun _ _ h => h.1
  refine .bind (freeForWrite_safe hwriting hc hprop) fun _ => .bind hwrite fun _ =>
    .bind (segmentAllocations_calls.reads _) fun allocations => ?_
  cases allocations.get? own.id with
  | none => exact .fail fun _ h => h
  | some allocated =>
    refine .bind (requireOr_safe (discardSegment_safe hwriting)) fun _ => .start fun l' _ _ hl' => ?_
    refine .bind (Q := fun _ => Writes own config) (.whenever (fun _ => ?_) fun l _ h _ => h ▸ hl'.1)
      fun _ => .pure fun _ _ h => ⟨h, hl'.2⟩
    refine (Safe.bind (segmentAllocations_calls.reads (Writes own config)) fun allocations =>
      .bind (Reads.getLedger (Writes own config)) fun l => ?_).strengthen fun l _ h => h ▸ hl'.1
    exact (requireOr_safe (discardSegment_safe hwriting)).weaken fun _ _ _ h => h.1

theorem writeRefused_safe {α : Type} {failure : Failure} {Q : α → Ledger → Prop} (hwriting : own.state = .writing) :
    Safe s c (Writes own config) (writeRefused own.id failure) Q Fails := by
  unfold writeRefused
  split
  · refine .bind (Q := fun _ => Anything) (.transact (fun _ _ _ _ => trivial)
      (fun l _ h => h.eachSegment hwriting) (fun _ => nofun) fun _ _ _ => trivial) fun _ => ?_
    exact refuse_safe.weaken fun _ _ _ h => h.elim
  · exact .fail fun _ _ => trivial

theorem admitSegment_safe (hnow : now = c.now) (hprop : c.proposed = none) (hprofile : k.profiles.get? source = some profile) :
    Safe s c (fun l => l.configuration = some k ∧ Follows c l source profile start stop ∧
        (c.trusted = true → l.latestClock = some c.now))
      (admitSegment s k source start stop data now c.trusted) (fun _ => Anything) Fails := by
  have hc := grants_trusted (c := c) hnow
  refine .bind .freshId fun identifier => .getLedger fun l₁ _ _ hl₁ => ?_
  obtain ⟨hk, hfollows, hrec⟩ := hl₁
  have hforce : ∀ k' ∈ l₁.configuration, k'.config = k.config := by
    intro k' hk'
    rw [Option.some.inj (hk.symm.trans hk')]
  refine .bind (requireCapacity_safe.weaken fun _ _ _ h => h.1) fun _ => ?_
  refine .bind (Q := fun _ l => l₁.Trims l) ((trim_safe l₁ hc ?_).conseq
    (fun l _ h => h ▸ .refl l₁) (fun _ _ _ h => h) fun _ _ _ => trivial) fun _ => ?_
  · intro proposed hp
    simp [hprop] at hp
  refine .bind (Q := fun _ l => l₁.Trims l) (.whenever
    (fun hcap => makeRoom_safe hc hprop hcap.1 hforce) fun _ _ h _ => h) fun _ => ?_
  let own : Segment :=
    { id := identifier, source := source, start := start, stop := stop, length := data.length
      allocated := 0, checksum := s.sha256 data, state := .writing, clockTrusted := c.trusted }
  subst hnow
  refine .bind (insertSegment_safe own hk hprofile hfollows hrec rfl rfl rfl) fun _ => ?_
  have hstore : Safe s c (Writes own k.config) (handle (storeSegment s k.config own.id data c.now
      c.trusted (l₁.incidentsFor source start stop c.now c.trusted).isEmpty) (writeRefused own.id))
      (fun allocated l => Writes own k.config l ∧ 512 ≤ allocated) Fails :=
    .handle (storeSegment_safe rfl hc hprop) fun e => writeRefused_safe rfl
  refine .bind (hstore.strengthen fun l _ h => ⟨h.1, fun k' hk' => ?_⟩) fun allocated =>
    .bind (Q := fun _ => Anything) (.transact (fun _ _ _ _ => trivial)
      (fun l _ h => ⟨h.2, h.1.eachSegment rfl⟩) (fun _ => nofun) fun _ _ _ => trivial) fun _ =>
    .pure fun _ _ _ => trivial
  rw [Option.some.inj (h.2.symm.trans hk')]

theorem trim_any (hc : c.Grants now trusted) (hprop : c.proposed = none) :
    Safe s c Anything (trim now trusted) (fun _ => Anything) Fails := by
  refine .start fun l₁ _ _ _ => ((trim_safe l₁ hc ?_).conseq (fun l _ h => h ▸ .refl l₁)
    (fun _ _ _ _ => trivial) fun _ _ _ => trivial)
  intro proposed hp
  simp [hprop] at hp

theorem appendSegment_safe (hnow : now = c.now) (hclaimed : claimed = c.claimed) (hticks : c.ticks = true)
    (hprop : c.proposed = none) : Safe s c Anything (appendSegment s source start stop data now claimed) (fun _ => Anything)
      Fails := by
  refine .bind (clock_safe hnow hprop (clockRead_claimed hnow hclaimed)) fun b => ?_
  refine .start fun l₀ _ _ hl₀ => ?_
  obtain ⟨rfl, hrec⟩ := hl₀
  refine .bind (Q := fun r l => (c.trusted = true → l.latestClock = some c.now) ∧
      l.configuration = some r.1 ∧ r.1.profiles.get? source = some r.2)
    (configuredSource_safe.weaken fun r l _ h => ⟨h.1 ▸ hrec, h.2⟩) fun (k, profile) => ?_
  refine .bind (checkSegment_safe hnow hprop) fun _ => .start fun l₁ _ _ hl₁ => ?_
  obtain ⟨⟨hrec, hk, hprofile⟩, hfollows⟩ := hl₁
  refine .bind ((admitSegment_safe hnow hprop hprofile).strengthen
    fun l _ h => h ▸ ⟨hk, hfollows, hrec⟩) fun identifier => ?_
  have hc := grants_trusted (c := c) hnow
  exact .bind (tickAt_safe hc (fun _ => hticks) hprop) fun _ => .bind (trim_any hc hprop) fun _ =>
    .bind statusAt_safe fun _ => .pure fun _ _ _ => trivial

/-! ## Connection, maintenance and reads -/

theorem observeLoss_safe (hnow : now = c.now) (hticks : c.ticks = true) (hprop : c.proposed = none) :
    Safe s c Anything (observeLoss s now c.trusted) (fun _ => Anything) Fails := by
  refine .bind configured_safe fun k => .getLedger fun l' _ _ hl' => ?_
  obtain ⟨-, hk⟩ := hl'
  split
  · refine .bind (Q := fun _ => Anything) (.transact (fun _ _ _ _ => trivial) ?_ (fun _ => nofun)
      fun _ _ _ => trivial) fun _ => .bind .setStatus fun _ => .pure fun _ _ _ => trivial
    rintro l - rfl
    exact Option.isSome_iff_exists.mpr ⟨k, hk⟩
  · have hclock := clock_grants (s := s) hnow hprop (clockRead_trusted hnow)
    exact .bind ((preserveAt_safe hprop (hclock.weaken fun _ _ _ h => ⟨h, fun _ => hticks⟩)).strengthen
      fun _ _ _ => trivial) fun _ => .pure fun _ _ _ => trivial

theorem observe_safe {authenticated connected unexpected : Bool} (hnow : now = c.now) (hclaimed : claimed = c.claimed)
    (hticks : c.ticks = true) (hprop : c.proposed = none) :
    Safe s c Anything (observe s authenticated connected unexpected now claimed) (fun _ => Anything)
      Fails := by
  refine .bind (clock_safe hnow hprop (clockRead_claimed hnow hclaimed)) fun b => ?_
  refine .start fun l₀ _ _ hl₀ => ?_
  obtain ⟨rfl, -⟩ := hl₀
  refine .getMemory fun m => .bind (Q := fun _ => Anything) (.ite (fun _ => ?_) fun _ =>
    .pure fun _ _ _ => trivial) fun incident => ?_
  · exact (observeLoss_safe hnow hticks hprop).strengthen fun _ _ _ => trivial
  · exact .bind (.modifyMemory (fun _ => rfl) (fun _ => rfl) fun _ => rfl) fun _ =>
      .pure fun _ _ _ => trivial

theorem tickRing_safe (hnow : now = c.now) (hclaimed : claimed = c.claimed) (hticks : c.ticks = true)
    (hprop : c.proposed = none) : Safe s c Anything (tickRing s now claimed) (fun _ => Anything) Fails := by
  refine .bind (clock_grants hnow hprop (clockRead_claimed hnow hclaimed)) fun b => ?_
  refine .start fun l₀ _ _ hc => ?_
  exact (Safe.bind (tickAt_safe hc (fun _ => hticks) hprop) fun _ => .bind (trim_any hc hprop) fun _ =>
    statusAt_safe).strengthen fun _ _ _ => trivial

theorem deleteIncident_safe (hnow : now = c.now) (hclaimed : claimed = c.claimed) (hprop : c.proposed = none)
    (hdel : c.deleting = some incident) :
    Safe s c Anything (deleteIncident s incident now claimed) (fun _ => Anything) Fails := by
  refine .bind (clock_grants hnow hprop (clockRead_claimed hnow hclaimed)) fun b => ?_
  refine .start fun l₁ _ _ hc => ?_
  refine .bind (Q := fun _ => Anything) ((deleteIncidentAt_safe l₁
    (fun row _ hid => .inr (.inl (hid ▸ hdel)))
    hc hprop).conseq (fun l _ h => h ▸ .refl l₁) (fun _ _ _ _ => trivial) fun _ _ _ => trivial) fun _ => ?_
  exact trim_any hc hprop

theorem readIncident_safe : Safe s c Anything (readIncident incident now) (fun _ => Anything) Fails := by
  refine .bind (reconcilePresence_safe fun _ _ _ => trivial) fun _ => .getLedger fun l' _ _ _ => ?_
  split
  · exact .fail fun _ _ => trivial
  · exact .pure fun _ _ _ => trivial

/-! ## Opening -/

/-- The states that recovery finds: none of them is `deleting`. -/
def Recovers (rows : List Segment) (states : List (UUID × SegmentState × Nat)) : Prop :=
  ∀ change ∈ states, (change.2.1 = .stored ∨ change.2.1 = .missing ∨ change.2.1 = .uncertain) ∧
    ∃ row ∈ rows, row.id = change.1

theorem recoveredStates_safe {physical : Dict UUID Nat} {allocated : Allocations} :
    Safe s c P (recoveredStates s physical allocated rows)
      (fun states l => P l ∧ Recovers rows states) fun e _ => e.External := by
  induction rows with
  | nil => exact .pure fun _ _ hP => ⟨hP, fun change hc => absurd hc List.not_mem_nil⟩
  | cons row rest ih =>
    have hvalid : Calls s c (if (physical.get? row.id).isSome = true
        then verifySegment s row.id row.length row.checksum else pure false) :=
      .ite verifySegment_calls .pure
    refine .bind (hvalid.safe fun _ _ he _ => he) fun valid => .bind ih fun states => .pure ?_
    rintro l - ⟨hP, hstates⟩
    refine ⟨hP, fun change hchange => ?_⟩
    rcases List.mem_cons.mp hchange with rfl | hchange
    · refine ⟨?_, row, List.mem_cons_self, rfl⟩
      dsimp only
      split_ifs
      · exact .inr (.inl rfl)
      · exact .inl rfl
      · exact .inr (.inr rfl)
    · obtain ⟨hstate, other, hother, hid⟩ := hstates change hchange
      exact ⟨hstate, other, List.mem_cons_of_mem _ hother, hid⟩

/-- A row is under deletion and protected. -/
def Entangled (l : Ledger) : Prop :=
  ∃ row ∈ l.segments.rows, row.state = .deleting ∧ l.isProtected row.id = true

theorem removeAll_safe (hl₁ : ∀ row ∈ rows, row ∈ l₁.segments.rows) (hrows : ∀ row ∈ rows, row.state = .deleting) :
    Safe s c (fun l => l₁.Trims l) (forEach (fun row => removeSegment row.id) rows)
      (fun _ l => l₁.Trims l) fun e _ => e.External ∨ Entangled l₁ := by
  induction rows with
  | nil => exact .pure fun _ _ h => h
  | cons row rest ih =>
    have hmem := hl₁ row List.mem_cons_self
    have hstate := hrows row List.mem_cons_self
    have hremovable : Removable c (fun l => l₁.Trims l) row.id :=
      removable_trims hmem fun hne => absurd hstate hne
    refine .bind ((removeSegment_safe hremovable).conseq (fun _ _ h => h) (fun _ _ _ h => h) ?_) fun _ =>
      ih (fun row hrow => hl₁ row (List.mem_cons_of_mem _ hrow))
        fun row hrow => hrows row (List.mem_cons_of_mem _ hrow)
    rintro e l ⟨htrims, he | hprot⟩
    · exact .inl he
    · refine .inr ⟨row, hmem, hstate, ?_⟩
      by_contra hunprot
      have hfalse : l.isProtected row.id = false :=
        Ledger.isProtected_mono (by simpa using hunprot)
          (fun edge hedge _ => htrims.1.protection edge hedge)
          fun incident hi hst => ⟨incident, htrims.2 ▸ hi, rfl, hst⟩
      rw [hfalse] at hprot
      exact absurd hprot (by decide)

/-- Recovery makes permitted changes; only the store, the ledger or a row that is both under deletion
and protected can make it fail. -/
theorem recover_safe (hprop : c.proposed = none) :
    Safe s c (fun l => l = l₁) (recover s) (fun _ => Anything)
      fun e _ => e.External ∨ Entangled l₁ := by
  refine .bind (listSegments_calls.safe fun _ _ he _ => .inl he) fun physical =>
    .bind (segmentAllocations_calls.safe fun _ _ he _ => .inl he) fun allocated =>
    .bind (.ledgerTurn fun _ _ he _ => .inl he) fun _ => .getLedger fun l' _ _ hl' => ?_
  subst hl'
  refine .bind (recoveredStates_safe.conseq (fun _ _ h => h) (fun _ _ _ h => h) fun _ _ he => .inl he)
    fun states => .start fun l'' _ _ hstates => ?_
  obtain ⟨rfl, hrec⟩ := hstates
  refine .bind (Q := fun _ l => l = l''.apply (.setStates states)) (.act ?_ (fun _ => nofun) ?_)
    fun _ => ?_
  · rintro l - rfl change hchange
    obtain ⟨hstate, row, hrow, hid⟩ := hrec change hchange
    obtain ⟨hmem, hne⟩ := List.mem_filter.mp hrow
    refine ⟨hstate, fun other hother hoid => ?_⟩
    obtain rfl : other = row := Table.eq_of_key hother hmem (hoid.trans hid.symm)
    simpa using hne
  · rintro l - rfl
    rfl
  refine .bind (Q := fun _ l => l = l''.apply (.setStates states))
    (.whenever (fun _ => .setStatus) fun _ _ h _ => h) fun _ => .getLedger fun l₂ _ _ hl₂ => ?_
  -- recovery neither starts nor ends a deletion
  have hentangled : Entangled l₂ → Entangled l'' := by
    rintro ⟨row, hrow, hstate, hprot⟩
    rw [hl₂] at hrow hprot
    rcases Ledger.segment_of_apply hrow with ⟨earlier, he, hcont, hsame | hmoves⟩ | ⟨_, hins⟩
    · exact ⟨earlier, he, hsame.symm.trans hstate, hcont.id ▸ hprot⟩
    · obtain ⟨allocated, hin⟩ := hmoves
      rw [hstate] at hin
      rcases (hrec _ hin).1 with h | h | h <;> cases h
    · cases hins
  have hdeleting : ∀ row ∈ l₂.segments.rows.filter fun row => row.state == .deleting,
      row.state = .deleting := by
    intro row hrow
    simpa using (List.mem_filter.mp hrow).2
  refine .bind (Q := fun _ => Anything) ((removeAll_safe (fun row hrow => (List.mem_filter.mp hrow).1)
    hdeleting).conseq (fun l _ h => h ▸ .refl l₂) (fun _ _ _ _ => trivial)
    fun e l h => h.imp id hentangled) fun _ => .getLedger fun l₃ _ _ _ => ?_
  refine (deleteIncidents_safe l₃ ?_ Ctx.grants_false hprop).conseq
    (fun l _ h => h ▸ .refl l₃) (fun _ _ _ _ => trivial) fun _ _ he => .inl he
  intro row hrow other hother hid
  obtain ⟨hmem, hstate⟩ := List.mem_filter.mp hrow
  obtain rfl : other = row := Table.eq_of_key hother hmem hid
  have hstate : other.state = .deleting := by simpa using hstate
  exact .inl (by rw [hstate]; rfl)

end Sentinel.Ring
