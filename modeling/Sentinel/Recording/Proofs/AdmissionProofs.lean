import Sentinel.Recording.Proofs.StoreProofs

/-!
# What admission keeps

`admit` reclaims recordings through the store before it holds a reservation. Reclamation only ever marks and
deletes the candidates of the retention, which are neither active nor starred when they are chosen and which
none of its own statements changes otherwise. Once the request is reserved the audit of a transition shares the
reservation, so the last sample is the one the decision is made on.
-/

namespace Sentinel.Recording

open Program

variable {u : Setup} {b : Bool} {R S F : Demand} {w : World} {α : Type} {id : UUID}

/-! ## Reclamation -/

theorem Tables.Inert.apply {t : Tables} {ids : List UUID} {c : Change} (h : t.Inert ids) (hc : c.Removes id) :
    (t.apply c).Inert ids := by
  cases c with
  | setStatus recording status =>
    obtain ⟨rfl, rfl⟩ := hc
    intro r hr hid hprotected
    obtain ⟨r', hr', rfl⟩ := List.mem_map.mp hr
    by_cases heq : r'.id = recording
    · rw [if_pos heq] at hid hprotected
      rcases hprotected with hactive | hstarred
      · cases hactive
      · exact h r' hr' hid (.inr hstarred)
    · rw [if_neg heq] at hid hprotected
      exact h r' hr' hid hprotected
  | deleteRecording recording => exact fun r hr => h r (Table.mem_delete.mp hr).1
  | unspool _ | dropSource _ | deleteSegment _ | unlink _ _ | dropNotes _ => exact h
  | _ => exact hc.elim

/-- Where the statements that add nothing keep a demand, deleting inert recordings keeps it and touches no
protected recording or segment. -/
theorem Closed.reclaiming (h : Closed u false Change.Edits R) (ids : List UUID) :
    Closed u true (fun c => ∃ id ∈ ids, c.Removes id) fun n t => R n t ∧ t.Inert ids where
  mono := fun _ _ _ hmn ht => ⟨h.mono hmn ht.1, ht.2⟩
  change := fun ⟨_, _, hc⟩ hallowed ht => ⟨h.change hc.edits hallowed ht.1, ht.2.apply hc⟩
  entries := by
    rintro c n t ⟨id, hid, hc⟩ hallowed ⟨-, hinert⟩
    cases c with
    | deleteSegment segment => exact deletesSegment_ok hallowed
    | deleteRecording recording =>
      obtain rfl : recording = id := hc
      intro e he
      rw [List.mem_singleton.mp he]
      exact fun _ r hr heq => hinert r hr (heq ▸ hid)
    | setStatus recording status =>
      obtain ⟨rfl, rfl⟩ := hc
      intro e he
      rw [List.mem_singleton.mp he]
      exact fun _ r hr heq => hinert r hr (heq ▸ hid)
    | link _ _ => exact hc.elim
    | _ => exact fun e he => by cases he

theorem Tables.inert_candidates (t : Tables) (beforeMs : Option Int) (limit : Nat) :
    t.Inert (((t.candidates beforeMs).take limit).map RecordingRow.id) := by
  intro r hr hid hprotected
  obtain ⟨row, hrow, heq⟩ := List.mem_map.mp hid
  have hmem := List.mem_of_mem_take hrow
  rw [Tables.candidates, List.mem_insertionSort, List.mem_filter] at hmem
  obtain rfl := Table.eq_of_key hmem.1 hr heq
  have hrow := hmem.2
  simp only [Bool.and_eq_true, Bool.or_eq_true, Bool.not_eq_true', beq_iff_eq] at hrow
  rcases hprotected with hactive | hstarred
  · rw [hactive] at hrow
    rcases hrow.1.2 with (h | h) | h <;> cases h
  · rw [hstarred] at hrow
    cases hrow.1.1

theorem retentionCandidates_spec (beforeMs : Option Int) (limit : Nat) :
    Triple (Idle u b R S) (retentionCandidates beforeMs limit)
      (fun rows w => Idle u b R S w ∧ w.tables.Inert (rows.map RecordingRow.id)) fun _ => Idle u b R S := by
  refine .bind Idle.steady.check fun _ => .bind keeps_require fun _ => .bind keeps_require fun _ =>
    (Idle.steady.query _).weaken ?_ fun _ _ hw => hw
  rintro rows w ⟨hw, rfl⟩
  exact ⟨hw, w.tables.inert_candidates beforeMs limit⟩

section

variable (h : Closed u false Change.Edits R) (hRS : ∀ {n t}, R n t → S n t)

include h hRS

theorem deleteCandidates_idle (beforeMs : Option Int) (limit : Nat) :
    Keeps (Idle u true R S) (deleteCandidates u beforeMs limit) := by
  refine .bind (retentionCandidates_spec beforeMs limit) fun rows => .bind (Q := fun _ => Idle u true R S)
    ((Triple.forEach (I := fun rows : List RecordingRow =>
      Idle u true (fun n t => R n t ∧ t.Inert (rows.map RecordingRow.id)) S) (E := fun _ => Idle u true R S)
      (fun row rest => ?_) rows).conseq ?_ (fun _ w hw => hw.conseq And.left id) fun _ _ hw => hw)
    fun _ => .pure fun _ hw => hw
  · refine .bind ((deleteRecording_idle (h.reclaiming _) (fun ht => hRS ht.1) ?_ false).weaken
      (fun _ w hw => hw.conseq (fun ht => ⟨ht.1, ?_⟩) id) fun _ w hw => hw.conseq And.left id) fun _ =>
      .pure fun _ hw => hw
    · exact fun hc => ⟨row.id, List.mem_map_of_mem List.mem_cons_self, hc⟩
    · exact fun r hr hid => ht.2 r hr (List.mem_cons_of_mem _ hid)
  · intro w hw
    exact ⟨hw.1.unreserved, hw.1.calm.log, hw.1.calm.reclaiming, ⟨hw.1.calm.tables, hw.2⟩, hw.1.calm.saved⟩

theorem expired_idle (nowMs : Int) (limit : Nat) : Keeps (Idle u true R S) (expired u nowMs limit) :=
  .bind keeps_require fun _ => .ite (fun _ => deleteCandidates_idle h hRS _ _) fun _ => .pure fun _ hw => hw

end

/-! ## Reading and classifying -/

/-- The bytes that recordings may take. -/
abbrev Setup.allocation (u : Setup) : Int := u.storage.recordingLimitBytes + u.storage.criticalAllowanceBytes

/-- The reading says what is stored. -/
def Reading.Counts (r : Reading) (t : Tables) : Prop :=
  t.usageBytes false false = r.used ∧ t.usageBytes false true = r.critical

theorem readUsage_spec :
    Triple (Idle u b R S) (readUsage u)
      (fun r w => Idle u b (fun n t => R n t ∧ r.Counts t) S w ∧ w.lastSample = some r.space) fun _ => Idle u b R S := by
  refine .handle (F := fun _ => Idle u b R S) (.bind (Q := fun space w => Idle u b R S w ∧ w.lastSample = some space)
    (.bind Idle.steady.turn fun t => .bind (.modify
      (R := fun _ w => Idle u b R S w ∧ w.lastSample = some t.space) fun w hw => ?_)
      fun _ => .pure fun _ hw => hw) fun space => ?_) fun f => ?_
  · exact ⟨⟨hw.unreserved.frame rfl rfl, hw.calm.frame rfl rfl rfl rfl⟩, rfl⟩
  · have hs : Steady fun w : World => w.lastSample = some space := ⟨fun h => h, fun h => h⟩
    have hcount (critical : Bool) (n : Nat) : Steady fun w : World => n = w.tables.usageBytes false critical :=
      ⟨fun h => h, fun h => h⟩
    have hI := Idle.steady.and hs (I := Idle u b R S)
    have hused (used : Nat) := hI.and (hcount false used)
    refine Triple.raising (E := fun _ w => Idle u b R S w ∧ w.lastSample = some space) (.bind (hI.usageBytes false false)
      fun used => .bind (((hused used).usageBytes false true).raising fun _ _ hw => hw.1) fun critical =>
      .bind ((((hused used).and (hcount true critical)).usageBytes true false).raising fun _ _ hw => hw.1.1) fun _ =>
      .bind (.require (R := fun _ w => ((Idle u b R S w ∧ w.lastSample = some space) ∧
        used = w.tables.usageBytes false false) ∧ critical = w.tables.usageBytes false true) (fun _ hw _ => hw.1)
        fun _ hw _ => hw.1.1.1) fun _ => .pure ?_) fun _ _ hw => hw.1
    rintro w ⟨⟨⟨hw, hsample⟩, hused⟩, hcritical⟩
    exact ⟨⟨hw.unreserved, hw.calm.log, hw.calm.reclaiming, ⟨hw.calm.tables, hused.symm, hcritical.symm⟩, hw.calm.saved⟩,
      hsample⟩
  · exact .ite (fun _ => .bind (transition_idle _) fun _ => .fail fun _ hw => hw) fun _ => .fail fun _ hw => hw

theorem keeps_readUsage : Keeps (Idle u b R S) (readUsage u) :=
  readUsage_spec.returning (fun _ _ hw => hw.1.conseq And.left id)

theorem guardMetadata_idle : Keeps (Idle u b R S) (guardMetadata u) :=
  .bind keeps_readUsage fun _ => .bind (.read fun _ hw => hw) fun _ =>
    .ite (fun _ => .bind (transition_idle _) fun _ => .fail fun _ hw => hw) fun _ => .pure fun _ hw => hw

section

variable (h : Closed u false Change.Edits R) (hRS : ∀ {n t}, R n t → S n t)

include h hRS

theorem reclaimOldest_idle (total media : Int) (recovering : Bool) (rounds : Nat) :
    Keeps (Idle u true R S) (reclaimOldest u total media recovering rounds) := by
  induction rounds with
  | zero => exact .pure fun _ hw => hw
  | succ rounds ih =>
    exact .bind keeps_readUsage fun _ => .bind (.read fun _ hw => hw) fun _ =>
      .ite (fun _ => .pure fun _ hw => hw) fun _ => .bind (deleteCandidates_idle h hRS none 1) fun _ =>
      .ite (fun _ => .pure fun _ hw => hw) fun _ => ih

theorem reclaim_idle (total media : Int) : Keeps (Idle u false R S) (reclaim u total media) := by
  have hreturns : ∀ w, Idle u true R S w → Idle u false R S { w with reclaiming := false } := fun w hw =>
    ⟨hw.unreserved.frame rfl rfl, hw.calm.log, rfl, hw.calm.tables, hw.calm.saved⟩
  refine .ensure (Q := fun _ => Idle u true R S) (E := fun _ => Idle u true R S)
    (.bind (.modify (R := fun _ => Idle u true R S) fun w hw => ?_) fun _ => .bind Idle.steady.turn fun _ =>
      .bind (expired_idle h hRS _ _) fun _ => .bind (.read fun _ hw => hw) fun _ =>
      reclaimOldest_idle h hRS _ _ _ _) (fun _ => .modify fun w hw => hreturns w hw) fun _ =>
    .modify fun w hw => hreturns w hw
  exact ⟨hw.unreserved.frame rfl rfl, hw.calm.log, rfl, hw.calm.tables, hw.calm.saved⟩

end

/-! ## The decision -/

/-- The request is reserved and the last sample is known. -/
def Decides (space : Space) (total : Int) (media : Nat) (p : Policy) (sample : Option Space) : Prop :=
  sample = some space ∧ p.reservedTotal = total ∧ p.reservedMedia = media

/-- After the classification a policy that is not stopped keeps the hard reserve, and in the normal state it is below the
recording limit with the request. -/
structure Classified (u : Setup) (space : Space) (used : Nat) (total : Int) (media : Nat) (p : Policy)
    (sample : Option Space) : Prop where
  decides : Decides space total media p sample
  reserve : p.state ≠ .hardStop → u.storage.hardReserveBytes ≤ space.available - total
  limit : p.state = .normal → (used + media : Int) < u.storage.recordingLimitBytes

theorem Reserved.drop {K : Policy → Option Space → Prop} (hw : Reserved u false K b R S w) :
    Reserved u false (fun _ _ => True) b R S w :=
  ⟨hw.held, hw.active, trivial, hw.calm⟩

theorem stateFor_reserved {space : Space} {total : Int} {media : Nat} (used : Nat) :
    Triple (Reserved u false (Decides space total media) b R S) (stateFor u space used)
      (fun _ => Reserved u false (Classified u space used total media) b R S)
      fun _ => Reserved u false (fun _ _ => True) b R S := by
  have htransition (p : Policy) (state : StorageState)
      (hreserve : state ≠ .hardStop → u.storage.hardReserveBytes ≤ space.available - total)
      (hlimit : state = .normal → (used + media : Int) < u.storage.recordingLimitBytes) :
      Triple (fun w => Reserved u false (Decides space total media) b R S w ∧ w.policy = p) (transition u state)
        (fun _ => Reserved u false (Classified u space used total media) b R S)
        fun _ => Reserved u false (fun _ _ => True) b R S :=
    (transitionWith_reserved state (fun hK hstate => ⟨hK, hstate ▸ hreserve, hstate ▸ hlimit⟩)
      (fun hK => ⟨hK, hreserve, hlimit⟩) fun hL => ⟨hL.decides, hL.reserve, hL.limit⟩).conseq (fun _ hw => hw.1)
      (fun _ _ hw => hw) fun _ _ hw => hw.drop
  refine .read_bind fun p => .of_fact (φ := p.reservedTotal = total ∧ p.reservedMedia = media)
    (fun w hw => hw.2 ▸ hw.1.policy.2) fun hreserved => .ite (fun _ => htransition p _ (fun h => absurd rfl h) fun h => by cases h)
    fun hkept => ?_
  have hreserve : u.storage.hardReserveBytes ≤ space.available - total := by omega
  refine .ite (fun _ => htransition p _ (fun _ => hreserve) fun h => by cases h) fun hwithin =>
    .ite (fun hrecovers => htransition p _ (fun _ => hreserve) fun _ => ?_) fun _ => .pure fun w hw =>
    ⟨hw.1.held, hw.1.active, ⟨hw.1.policy, fun _ => hreserve, fun _ => ?_⟩, hw.1.calm⟩
  · have hhysteresis := u.storage.hysteresis.2.2.1
    simp only [Policy.within, if_true, Bool.and_eq_true, decide_eq_true_eq] at hrecovers
    omega
  · simp only [not_or, Policy.within, Bool.false_eq_true, if_false, Bool.and_eq_false_iff, decide_eq_false_iff_not,
      not_not] at hwithin
    omega

/-- What an admitted request knows: the last sample keeps the hard reserve, under pressure the request is critical and within
the allowance, and the allocation has room for it. -/
structure Admits (u : Setup) (reading : Reading) (total : Int) (media : Nat) (critical : Bool) (p : Policy)
    (sample : Option Space) : Prop where
  reserve : ∃ space, sample = some space ∧ u.storage.hardReserveBytes ≤ space.available - p.reservedTotal
  pressure : p.state = .pressure → critical = true ∧ reading.critical + total ≤ u.storage.criticalAllowanceBytes
  room : (reading.used + media : Int) ≤ u.allocation

theorem decideAdmission_reserved (reading : Reading) (total : Int) (media : Nat) (critical : Bool) :
    Triple (Reserved u false (Decides reading.space total media) b R S) (decideAdmission u reading total media critical)
      (fun _ => Reserved u false (Admits u reading total media critical) b R S)
      fun _ => Reserved u false (fun _ _ => True) b R S := by
  refine .bind (stateFor_reserved reading.used) fun _ => .read_bind fun p => .bind (.require
    (R := fun _ w => (Reserved u false (Classified u reading.space reading.used total media) b R S w ∧ w.policy = p) ∧
      p.state ≠ .hardStop) (fun _ hw hstate => ⟨hw, hstate⟩) fun w hw _ => hw.1.drop) fun _ =>
    .require ?_ fun w hw _ => hw.1.1.drop
  rintro w ⟨⟨hw, rfl⟩, hstate⟩ hpressure
  refine ⟨hw.held, hw.active, ⟨⟨reading.space, hw.policy.decides.1, ?_⟩,
    fun h => ⟨(hpressure h).1, (hpressure h).2.2.1⟩, ?_⟩, hw.calm⟩
  · rw [hw.policy.decides.2.1]
    exact hw.policy.reserve hstate
  · cases hcase : w.policy.state with
    | normal =>
      have hlimit := hw.policy.limit hcase
      have hallowance := u.storage.positive.1
      unfold Setup.allocation
      omega
    | pressure => exact (hpressure hcase).2.2.2
    | hardStop => exact absurd hcase hstate

/-! ## Admission -/

/-- What an admission leaves: under pressure the request is critical, and the critical bytes and the request are within the
allowance; in any state what is stored and the request are within the allocation. -/
structure Allowed (u : Setup) (media : Nat) (critical : Bool) (w : World) : Prop where
  pressure : w.policy.state = .pressure → critical = true ∧
    w.tables.usageBytes false true + (media + u.storage.writeOverheadBytes) ≤ u.storage.criticalAllowanceBytes
  room : (w.tables.usageBytes false false + media : Int) ≤ u.allocation

theorem admitMedia_spec (h : Closed u false Change.Edits R) (hRS : ∀ {n t}, R n t → S n t) (media : Nat)
    (critical : Bool) :
    Triple (Idle u false R S) (admitMedia u media critical)
      (fun _ w => Reserved u false (fun _ _ => True) false R S w ∧ Allowed u media critical w)
      fun _ => Idle u false R S := by
  refine .bind (.modify (R := fun _ => Idle u false R S) fun w hw => ?_) fun _ => .bind (.read fun _ hw => hw)
    fun _ => .bind keeps_require fun _ => .bind guardMetadata_idle fun _ =>
    .bind (.modify (R := fun _ => Idle u false R S) fun w hw => hw.setPolicy rfl rfl rfl) fun _ =>
    .bind (.handle (F := fun _ => Idle u false R S) (reclaim_idle h hRS _ _) fun _ => .ite (fun _ =>
      .modify (R := fun _ => Idle u false R S) fun w hw => hw.setPolicy rfl rfl rfl) fun _ => .fail fun _ hw => hw)
    fun _ => .bind readUsage_spec fun reading => ?_
  · exact ⟨hw.unreserved.frame rfl rfl, hw.calm.note (e := .admits .media w.policy.reservation)
      hw.unreserved.reservation (fun _ => rfl) rfl rfl rfl rfl⟩
  let total := media + u.storage.writeOverheadBytes
  let R' : Demand := fun n t => R n t ∧ reading.Counts t
  refine .bind (.modify (R := fun _ => Reserved u false (Decides reading.space total media) false R' S) ?_) fun _ =>
    .bind (Q := fun _ => Reserved u false (Admits u reading total media critical) false R' S) (.handle
      (decideAdmission_reserved reading total media critical) fun _ => ?_) fun _ => .modify ?_
  · exact fun w hw => ⟨rfl, hw.1.unreserved.active, ⟨hw.2, rfl, rfl⟩, hw.1.calm.frame rfl rfl rfl rfl⟩
  · exact .bind ((release_spec (T := fun _ => True) fun _ => trivial).weaken
      (fun _ w hw => hw.1.conseq And.left id) fun _ _ hw => hw.elim) fun _ => .fail fun _ hw => hw
  · intro w hw
    have hcalm : Calm u false R' S { w with log := .admitted .media w.lastSample w.policy.reservedTotal :: w.log } :=
      hw.calm.note (e := .admitted .media w.lastSample w.policy.reservedTotal) hw.policy.reserve (fun _ => rfl) rfl rfl rfl rfl
    obtain ⟨hused, hcritical⟩ : reading.Counts w.tables := hw.calm.tables.2
    refine ⟨⟨hw.held, hw.active, trivial, hcalm.conseq And.left id⟩, ?_, ?_⟩
    · change w.policy.state = .pressure → _ ∧ (w.tables.usageBytes false true : Int) + _ ≤ _
      rw [hcritical]
      exact hw.policy.pressure
    · change (w.tables.usageBytes false false + media : Int) ≤ _
      rw [hused]
      exact hw.policy.room

end Sentinel.Recording
