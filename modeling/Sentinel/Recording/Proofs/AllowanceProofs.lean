import Sentinel.Recording.Proofs.ReservationProofs

/-!
# Critical evidence and its allowance

An admission under pressure compares the critical bytes stored and the request with the allowance. A segment
that is appended to a critical recording is part of the request. The segments of the spool that a critical
recording links when it starts are not: they become critical without being charged. In a run under pressure in
which no critical start charges more than the overhead that its admission left room for, the critical bytes
stay within the allowance.
-/

namespace Sentinel.Recording

open Program

variable {u : Setup} {t t' : Tables} {c : Change} {id : UUID} {keep : UUID → Bool} {n media : Nat}

/-! ## Bytes of rows -/

variable {f : SegmentRow → SegmentRow} {segment : UUID} {p : RecordingRow → Bool}

section Rows

variable {rows : List SegmentRow} {p q r : SegmentRow → Bool}

/-- The bytes of the rows that meet the condition. -/
abbrev rowBytes (p : SegmentRow → Bool) (rows : List SegmentRow) : Nat :=
  ((rows.filter p).map SegmentRow.byteLength).sum

theorem rowBytes_cons (s : SegmentRow) :
    rowBytes p (s :: rows) = (if p s = true then s.byteLength else 0) + rowBytes p rows := by
  unfold rowBytes
  by_cases hs : p s = true
  · rw [List.filter_cons_of_pos hs, List.map_cons, List.sum_cons, if_pos hs]
  · rw [List.filter_cons_of_neg hs, if_neg hs, Nat.zero_add]

theorem rowBytes_map_le (hlen : ∀ s, (f s).byteLength = s.byteLength) (h : ∀ s ∈ rows, p (f s) = true → q s = true) :
    rowBytes p (rows.map f) ≤ rowBytes q rows := by
  induction rows with
  | nil => exact Nat.le_refl _
  | cons s rest ih =>
    have hrest := ih fun x hx => h x (List.mem_cons_of_mem _ hx)
    rw [List.map_cons, rowBytes_cons, rowBytes_cons, hlen]
    have hs := h s List.mem_cons_self
    split_ifs with hp hq hq
    · omega
    · exact absurd (hs hp) hq
    · omega
    · omega

theorem rowBytes_le (h : ∀ s ∈ rows, p s = true → q s = true) : rowBytes p rows ≤ rowBytes q rows := by
  have := rowBytes_map_le (f := id) (fun _ => rfl) h
  rwa [List.map_id] at this

theorem rowBytes_filter_le {f : SegmentRow → Bool} (h : ∀ s ∈ rows, p s = true → q s = true) :
    rowBytes p (rows.filter f) ≤ rowBytes q rows := by
  induction rows with
  | nil => exact Nat.le_refl _
  | cons s rest ih =>
    have hrest := ih fun x hx => h x (List.mem_cons_of_mem _ hx)
    have hs := h s List.mem_cons_self
    by_cases hf : f s = true
    · rw [List.filter_cons_of_pos hf, rowBytes_cons, rowBytes_cons]
      split_ifs with hp hq hq
      · omega
      · exact absurd (hs hp) hq
      · omega
      · omega
    · rw [List.filter_cons_of_neg hf, rowBytes_cons]
      omega

theorem rowBytes_le_add (h : ∀ s ∈ rows, p s = true → q s = true ∨ r s = true) :
    rowBytes p rows ≤ rowBytes q rows + rowBytes r rows := by
  induction rows with
  | nil => exact Nat.le_refl _
  | cons s rest ih =>
    have hrest := ih fun x hx => h x (List.mem_cons_of_mem _ hx)
    have hs := h s List.mem_cons_self
    rw [rowBytes_cons, rowBytes_cons, rowBytes_cons]
    split_ifs with hp hq hr hr hq hr hr
    all_goals first
      | omega
      | exact absurd (hs hp) (by simp_all)

end Rows

theorem Tables.bytes_id_le (h : ∀ s ∈ t.segments.rows, s.id = id → s.byteLength ≤ media) :
    t.bytes (fun s => s.id == id) ≤ media := by
  have hmem : ∀ s ∈ t.segments.rows.filter (·.id == id), s ∈ t.segments.rows ∧ s.id = id := by
    intro s hs
    simpa using hs
  have hnodup : (t.segments.rows.filter (·.id == id)).Nodup := t.segments.nodup.of_map.filter _
  unfold Tables.bytes
  match hrows : t.segments.rows.filter (·.id == id) with
  | [] =>
    rw [hrows]
    exact Nat.zero_le _
  | [s] =>
    rw [hrows] at hmem ⊢
    have hs := hmem s List.mem_cons_self
    simpa using h s hs.1 hs.2
  | s :: s' :: rest =>
    rw [hrows] at hmem hnodup
    have hs := hmem s List.mem_cons_self
    have hs' := hmem s' (List.mem_cons_of_mem _ List.mem_cons_self)
    have heq := Table.eq_of_key hs.1 hs'.1 (hs.2.trans hs'.2.symm)
    rw [heq] at hnodup
    exact absurd List.mem_cons_self (List.nodup_cons.mp hnodup).1

/-! ## Critical segments under a statement -/

theorem Tables.linked_iff : t.linked p segment = true ↔
      ∃ l ∈ t.links, l.segment = segment ∧ ∃ r ∈ t.recordings.rows, r.id = l.recording ∧ p r = true := by
  simp [Tables.linked]

/-- A statement that adds no link and makes no recording critical makes no segment critical by links. -/
theorem Tables.linked_of (hl : ∀ l ∈ t'.links, l ∈ t.links)
    (hr : ∀ l ∈ t'.links, ∀ r ∈ t'.recordings.rows, r.id = l.recording → r.critical = true →
      ∃ r' ∈ t.recordings.rows, r'.id = r.id ∧ r'.critical = true)
    (h : t'.linked RecordingRow.critical segment = true) : t.linked RecordingRow.critical segment = true := by
  obtain ⟨l, hmem, hs, r, hrmem, hid, hc⟩ := Tables.linked_iff.mp h
  obtain ⟨r', hr', hid', hc'⟩ := hr l hmem r hrmem hid hc
  exact Tables.linked_iff.mpr ⟨l, hl l hmem, hs, r', hr', hid'.trans hid, hc'⟩

theorem Tables.isCritical_iff {s : SegmentRow} :
    t.isCritical s = true ↔
      s.state = .pending ∧ s.critical = true ∨ t.linked RecordingRow.critical s.id = true := by
  simp [Tables.isCritical]

theorem Tables.usageBytes_critical (t : Tables) : t.usageBytes false true = t.criticalBytes fun _ => true := by
  simp [Tables.usageBytes, Tables.criticalBytes]

/-- The recordings after a statement that adds none: a critical one was there before, critical. -/
theorem critical_of_edits (hc : c.Edits) {r : RecordingRow} (hr : r ∈ (t.apply c).recordings.rows)
    (hcritical : r.critical = true) : ∃ r' ∈ t.recordings.rows, r'.id = r.id ∧ r'.critical = true := by
  have hupdate : ∀ {id : UUID} {f : RecordingRow → RecordingRow},
      r ∈ t.recordings.rows.map (fun r => if r.id = id then f r else r) → (∀ r, (f r).id = r.id) →
      (∀ r, (f r).critical = r.critical) → ∃ r' ∈ t.recordings.rows, r'.id = r.id ∧ r'.critical = true := by
    intro id f hr hf hkeeps
    obtain ⟨r', hr', rfl⟩ := List.mem_map.mp hr
    refine ⟨r', hr', ?_⟩
    by_cases heq : r'.id = id
    · rw [if_pos heq] at hcritical ⊢
      exact ⟨(hf r').symm, (hkeeps r').symm.trans hcritical⟩
    · rw [if_neg heq] at hcritical ⊢
      exact ⟨rfl, hcritical⟩
  cases c with
  | closeRecording _ _ _ _ | setStatus _ _ | setStarred _ _ => exact hupdate hr (fun _ => rfl) fun _ => rfl
  | deleteRecording _ => exact ⟨r, (Table.mem_delete.mp hr).1, rfl, hcritical⟩
  | insertRecording _ => exact hc.elim
  | _ => exact ⟨r, hr, rfl, hcritical⟩

theorem links_of_edits (hc : c.Edits) : ∀ l ∈ (t.apply c).links, l ∈ t.links := by
  intro l hl
  cases c with
  | link _ _ => exact hc.elim
  | unlink _ _ => exact (List.mem_filter.mp hl).1
  | _ => exact hl

/-- The bytes of a condition on segments and on whether they are critical, where no segment becomes critical. -/
theorem Tables.bytes_mono {g : SegmentRow → Bool → Bool} (hrows : t'.segments.rows = t.segments.rows)
    (hcritical : ∀ s, t'.isCritical s = true → t.isCritical s = true)
    (hg : ∀ {s b b'}, (b = true → b' = true) → g s b = true → g s b' = true) :
    t'.bytes (fun s => g s (t'.isCritical s)) ≤ t.bytes fun s => g s (t.isCritical s) := by
  unfold Tables.bytes
  rw [hrows]
  exact rowBytes_le fun s _ hs => hg (hcritical s) hs

theorem Tables.isCritical_of_edits (hc : c.Edits) {s : SegmentRow} (h : (t.apply c).isCritical s = true) :
    t.isCritical s = true := by
  rw [Tables.isCritical_iff] at h ⊢
  exact h.imp_right (Tables.linked_of (links_of_edits hc) fun _ _ _ hr _ => critical_of_edits hc hr)

/-- Statements that add neither segments nor recordings nor links make nothing critical. -/
theorem Tables.bytes_edits_le {g : SegmentRow → Bool → Bool} (hc : c.Edits)
    (hg : ∀ {s b b'}, (b = true → b' = true) → g s b = true → g s b' = true)
    (hspool : ∀ {s b}, g { s with spool := false } b = true → g s b = true)
    (hintegrity : ∀ {s b integrity}, g { s with integrity := integrity } b = true → g s b = true) :
    (t.apply c).bytes (fun s => g s ((t.apply c).isCritical s)) ≤ t.bytes fun s => g s (t.isCritical s) := by
  have hcritical (s : SegmentRow) : (t.apply c).isCritical s = true → t.isCritical s = true := Tables.isCritical_of_edits hc
  cases c with
  | unspool ids =>
    refine rowBytes_map_le (fun s => by split <;> rfl) fun s _ hs => ?_
    split at hs
    · exact hspool hs
    · exact hs
  | setIntegrity segment integrity =>
    refine rowBytes_map_le (fun s => by split <;> rfl) fun s _ hs => ?_
    split at hs
    · exact hintegrity hs
    · exact hs
  | deleteSegment segment => exact rowBytes_filter_le fun s _ hs => hg (hcritical s) hs
  | journal row | publish segment | link recording segments | insertRecording row => exact hc.elim
  | _ => exact Tables.bytes_mono rfl hcritical hg

theorem Tables.criticalBytes_edits_le (hc : c.Edits) : (t.apply c).criticalBytes keep ≤ t.criticalBytes keep :=
  Tables.bytes_edits_le (g := fun s b => keep s.id && b) hc
    (fun hb hs => by simp_all) (fun hs => hs) fun hs => hs

/-! ## The demands are kept -/

theorem Tables.Referenced.updateRecording {f : RecordingRow → RecordingRow} (h : t.Referenced)
    (hf : ∀ r, (f r).id = r.id) : (t.updateRecording id f hf).Referenced := by
  intro l hl hfree
  refine h l hl fun r hr heq => hfree (if r.id = id then f r else r) (List.mem_map_of_mem hr) ?_
  split
  · exact (hf r).trans heq
  · exact heq

theorem Tables.Referenced.apply (h : t.Referenced) (hallowed : t.allows c = true) : (t.apply c).Referenced := by
  cases c with
  | link recording segments =>
    intro l hl hfree
    rcases List.mem_append.mp hl with hold | hnew
    · exact h l hold hfree
    · obtain ⟨segment, -, rfl⟩ := List.mem_map.mp hnew
      simp only [Tables.allows, Bool.and_eq_true, Bool.not_eq_true', decide_eq_false_iff_not] at hallowed
      exact hallowed.1.1 hfree
  | unlink recording segments => exact fun l hl => h l (List.mem_filter.mp hl).1
  | insertRecording row =>
    intro l hl hfree
    exact h l hl fun r hr => hfree r (Table.mem_insert.mpr (.inl hr))
  | closeRecording | setStatus | setStarred => exact h.updateRecording (by exact fun _ => rfl)
  | deleteRecording recording =>
    intro l hl hfree
    simp only [Tables.allows, Bool.and_eq_true, List.all_eq_true, bne_iff_ne] at hallowed
    refine h l hl fun r hr heq => hfree r (Table.mem_delete.mpr ⟨hr, ?_⟩) heq
    have := hallowed.1 l hl
    simpa [heq] using this
  | _ => exact h

theorem closed_within : Closed u false Change.Edits (Within u) where
  mono := fun _ _ _ _ ht => ht
  change := by
    intro c n t hc hallowed ht
    refine ⟨ht.1.apply hallowed, ?_⟩
    have hle : (t.apply c).usageBytes false true ≤ t.usageBytes false true := by
      rw [Tables.usageBytes_critical, Tables.usageBytes_critical]
      exact Tables.criticalBytes_edits_le hc
    have := ht.2
    omega
  entries := fun _ _ _ => entries_ok

/-- A segment is linked by the new links, to the recording they are of, or was linked before. -/
theorem Tables.linked_link {recording : UUID} {segments : List UUID}
    (h : (t.apply (.link recording segments)).linked p segment = true) : t.linked p segment = true ∨
      segment ∈ segments ∧ ∃ r ∈ t.recordings.rows, r.id = recording ∧ p r = true := by
  obtain ⟨l, hl, hsegment, r, hr, hid, hp⟩ := Tables.linked_iff.mp h
  rcases List.mem_append.mp hl with hold | hnew
  · exact .inl (Tables.linked_iff.mpr ⟨l, hold, hsegment, r, hr, hid, hp⟩)
  · obtain ⟨s, hs, rfl⟩ := List.mem_map.mp hnew
    exact .inr ⟨hsegment ▸ hs, r, hr, hid, hp⟩

theorem Tables.usageBytes_link_le (t : Tables) (recording : UUID) (segments : List UUID) :
    (t.apply (.link recording segments)).usageBytes false true ≤
      t.usageBytes false true + newlyCritical t recording segments := by
  rw [Tables.usageBytes_critical, Tables.usageBytes_critical]
  unfold newlyCritical
  split_ifs with hcritical
  · refine rowBytes_le_add fun s _ hs => ?_
    rw [Bool.and_eq_true, Tables.isCritical_iff] at hs
    by_cases hbefore : t.isCritical s = true
    · exact .inl (by simpa using hbefore)
    · refine .inr ?_
      rcases hs.2 with hs | hs
      · exact absurd (Tables.isCritical_iff.mpr (.inl hs)) hbefore
      · rcases Tables.linked_link hs with hold | ⟨hmem, -⟩
        · exact absurd (Tables.isCritical_iff.mpr (.inr hold)) hbefore
        · simpa [hmem] using hbefore
  · refine rowBytes_le fun s _ hs => ?_
    rw [Bool.and_eq_true, Tables.isCritical_iff] at hs ⊢
    refine ⟨hs.1, hs.2.imp_right fun hs => ?_⟩
    rcases Tables.linked_link hs with hold | ⟨-, r, hr, hid, hp⟩
    · exact hold
    · exact absurd (List.any_eq_true.mpr ⟨r, hr, by simp [hid, hp]⟩) hcritical

theorem Tables.isCritical_of_insertRecording (h : t.Referenced) {row : RecordingRow} {s : SegmentRow}
    (hs : (t.apply (.insertRecording row)).isCritical s = true) : t.isCritical s = true := by
  rw [Tables.isCritical_iff] at hs ⊢
  refine hs.imp_right fun hlinked => Tables.linked_of ?_ ?_ hlinked
  · exact fun l hl => hl
  intro l hl r hr hid hcritical
  rcases Table.mem_insert.mp hr with hold | ⟨rfl, hfree⟩
  · exact ⟨r, hold, rfl, hcritical⟩
  · exact absurd (hid ▸ hfree) (h l hl)

theorem closed_starting : Closed u false Change.Starts (Starting u) where
  mono := by
    intro m n t hmn ht
    have := ht.2
    exact ⟨ht.1, by omega⟩
  change := by
    intro c n t hc hallowed ht
    refine ⟨ht.1.apply hallowed, ?_⟩
    have hbefore := ht.2
    cases c with
    | insertRecording row =>
      have : (t.apply (.insertRecording row)).usageBytes false true ≤ t.usageBytes false true := by
        rw [Tables.usageBytes_critical, Tables.usageBytes_critical]
        exact Tables.bytes_mono (g := fun _ b => true && b) rfl (fun _ => Tables.isCritical_of_insertRecording ht.1)
          fun hb hs => by simp_all
      change _ ≤ u.storage.criticalAllowanceBytes + ((n + 0 : Nat) : Int)
      omega
    | link recording segments =>
      have := t.usageBytes_link_le recording segments
      change _ ≤ u.storage.criticalAllowanceBytes + ((n + newlyCritical t recording segments : Nat) : Int)
      omega
    | note gaps => exact hbefore
    | _ => exact hc.elim
  entries := fun _ _ _ => entries_ok

/-! ## Writing a segment -/

theorem Change.Publishes.cases (hc : c.Publishes id) :
    c = .publish id ∨ (∃ recording, c = .link recording [id]) ∨ c.Edits := by
  cases c with
  | publish segment => exact .inl (congrArg _ hc)
  | link recording segments => exact .inr (.inl ⟨recording, congrArg _ hc⟩)
  | journal row | insertRecording row => exact hc.elim
  | _ => exact .inr (.inr trivial)

theorem Tables.criticalBytes_publishes_le (hc : c.Publishes id) :
    (t.apply c).criticalBytes (· != id) ≤ t.criticalBytes (· != id) := by
  rcases hc.cases with rfl | ⟨recording, rfl⟩ | hedits
  · refine rowBytes_map_le (fun s => by split <;> rfl) fun s _ hs => ?_
    by_cases hid : s.id ∈ [id]
    · rw [if_pos hid] at hs
      simp [List.mem_singleton.mp hid] at hs
    · rwa [if_neg hid] at hs
  · refine rowBytes_le fun s _ hs => ?_
    rw [Bool.and_eq_true, Tables.isCritical_iff] at hs ⊢
    refine ⟨hs.1, hs.2.imp_right fun hs' => ?_⟩
    rcases Tables.linked_link hs' with hold | ⟨hmem, -⟩
    · exact hold
    · simp [List.mem_singleton.mp hmem] at hs
  · exact Tables.criticalBytes_edits_le hedits

theorem byteLength_of_publishes (hc : c.Publishes id)
    (h : ∀ s ∈ t.segments.rows, s.id = id → s.byteLength ≤ media) :
    ∀ s ∈ (t.apply c).segments.rows, s.id = id → s.byteLength ≤ media := by
  have hupdate : ∀ {ids : List UUID} {f : SegmentRow → SegmentRow} {s : SegmentRow},
      s ∈ t.segments.rows.map (fun s => if s.id ∈ ids then f s else s) → (∀ s, (f s).id = s.id) →
      (∀ s, (f s).byteLength = s.byteLength) → s.id = id → s.byteLength ≤ media := by
    intro ids f s hs hf hlen hid
    obtain ⟨s', hs', rfl⟩ := List.mem_map.mp hs
    by_cases hmem : s'.id ∈ ids
    · rw [if_pos hmem] at hid ⊢
      rw [hlen]
      exact h s' hs' ((hf s').symm.trans hid)
    · rw [if_neg hmem] at hid ⊢
      exact h s' hs' hid
  cases c with
  | publish segment | unspool ids => exact fun s hs => hupdate hs (fun _ => rfl) fun _ => rfl
  | deleteSegment segment => exact fun s hs => h s (Table.mem_delete.mp hs).1
  | journal row | setIntegrity segment integrity => exact hc.elim
  | _ => exact h

theorem closed_writing : Closed u false (Change.Publishes id) (Writing u id media) where
  mono := fun _ _ _ _ ht => ht
  change := by
    intro c n t hc hallowed ht
    refine ⟨ht.1.apply hallowed, byteLength_of_publishes hc ht.2.1, ?_⟩
    have hle := Tables.criticalBytes_publishes_le (t := t) hc
    have := ht.2.2
    omega
  entries := fun _ _ _ => entries_ok

theorem Writing.within (h : Writing u id media n t) : Within u n t := by
  refine ⟨h.1, ?_⟩
  have hsplit : t.usageBytes false true ≤ t.criticalBytes (· != id) + t.bytes (fun s => s.id == id) := by
    rw [Tables.usageBytes_critical]
    refine rowBytes_le_add fun s _ hs => ?_
    by_cases hid : s.id = id
    · exact .inr (by simp [hid])
    · exact .inl (by simpa [hid] using hs)
  have hown := Tables.bytes_id_le h.2.1
  have hoverhead := u.storage.positive.2.2.2.1
  have := h.2.2
  omega

theorem writing_of_journal {segment : Segment} {critical : Bool}
    (hallowed : t.allows (.journal (segment.row id critical)) = true) (h : Within u n t)
    (hroom : t.usageBytes false true + (segment.byteLength + u.storage.writeOverheadBytes) ≤
      u.storage.criticalAllowanceBytes) :
    Writing u id segment.byteLength n (t.apply (.journal (segment.row id critical))) := by
  have hfree : t.segments.Free id := by
    simp only [Tables.allows, Bool.and_eq_true, decide_eq_true_eq] at hallowed
    exact hallowed.1
  have hrows : (t.apply (.journal (segment.row id critical))).segments.rows =
      t.segments.rows ++ [segment.row id critical] := Table.rows_insert hfree
  refine ⟨h.1.apply hallowed, fun s hs hid => ?_, ?_⟩
  · rw [hrows] at hs
    rcases List.mem_append.mp hs with hold | hnew
    · exact absurd hid (hfree s hold)
    · rw [List.mem_singleton.mp hnew]
      exact Nat.le_refl _
  · have hle : (t.apply (.journal (segment.row id critical))).criticalBytes (· != id) ≤
        t.usageBytes false true := by
      rw [Tables.usageBytes_critical]
      unfold Tables.criticalBytes Tables.bytes
      rw [hrows, List.filter_append, List.filter_cons_of_neg (by simp [Segment.row]), List.filter_nil,
        List.append_nil]
      refine rowBytes_le fun s _ hs => ?_
      rw [Bool.and_eq_true] at hs ⊢
      exact ⟨rfl, hs.2⟩
    omega

/-! ## Operations under pressure -/

/-- The demand, where the state is pressure. -/
def Under (state : StorageState) (R : Demand) : Demand := fun n t => state = .pressure → R n t

/-- What an operation leaves under pressure. -/
def Leaves (u : Setup) (critical : Bool) : Demand := fun n t => Within u n t ∨ critical = true ∧ Starting u n t

section

variable {K : Policy → Option Space → Prop} {state : StorageState} {α : Type} {R : Demand}

theorem held_under_of_ne {p : StoreM α} {P : World → Prop} (hstate : state ≠ .pressure)
    (hp : Leads P p (Held u K false anything anything)) :
    Leads P p (Held u K false (Under state R) (Under state R)) :=
  hp.weaken (fun _ _ hw => hw.conseq (fun _ h => absurd h hstate) fun _ h => absurd h hstate)
    fun _ _ hw => hw.conseq (fun _ h => absurd h hstate) fun _ h => absurd h hstate

theorem writeSegment_under (segment : Segment) (active : List RecordingRow) (prior : Option Cursor)
    (critical starts : Bool) :
    Leads (fun w => Held u (InState state) false (Within u) (Within u) w ∧ Allowed u segment.byteLength critical w)
      (writeSegment u id segment active prior critical)
      (Held u (InState state) false (Under state (Leaves u starts)) (Under state (Leaves u starts))) := by
  by_cases hstate : state = .pressure
  · subst hstate
    let R : Demand := fun n t => Within u n t ∧ t.usageBytes false true +
      (segment.byteLength + u.storage.writeOverheadBytes) ≤ u.storage.criticalAllowanceBytes
    have hjournal : Triple (Held u (InState .pressure) false R (Within u))
        (transaction u (exec (.journal (segment.row id critical))))
        (fun _ => Held u (InState .pressure) false (Writing u id segment.byteLength) (Within u))
        fun _ => Held u (InState .pressure) false (Within u) (Within u) :=
      transaction_held And.left And.left Writing.within
        ((exec_spec (fun _ _ _ _ ht => ht) (fun hallowed ht => writing_of_journal hallowed ht.1 ht.2)
          fun _ _ => entries_ok).raising fun _ _ hw => hw.conseq And.left fun ht => ht)
    refine (writeSegment_held (F := Within u) closed_writing Writing.within Writing.within (fun hc => hc)
      hjournal).conseq (fun w hw => ?_) (fun _ _ hw => hw.conseq (fun ht _ => .inl ht.within) fun ht _ => .inl ht)
      fun _ _ hw => hw.conseq (fun ht _ => .inl ht) fun ht _ => .inl ht
    exact ⟨hw.1.held, hw.1.active, hw.1.policy, hw.1.calm.log, hw.1.calm.reclaiming,
      ⟨hw.1.calm.tables, (hw.2.pressure hw.1.policy).2⟩, hw.1.calm.saved⟩
  · exact held_under_of_ne hstate (Triple.strengthen writeSegment_anything
      fun _ hw => hw.1.conseq (fun _ => trivial) fun _ => trivial)

theorem startRecordings_under (critical : Bool) (sources identities : List UUID) (startMs endMs : Int)
    (event : Option UUID) :
    Leads (fun w => Held u (InState state) false (Within u) (Within u) w ∧ Allowed u 0 critical w)
      (startRecordings u sources identities startMs endMs event critical)
      (Held u (InState state) false (Under state (Leaves u critical)) (Under state (Leaves u critical))) := by
  by_cases hstate : state = .pressure
  · subst hstate
    refine .of_fact (fun w hw => (hw.2.pressure hw.1.policy).1) fun hcritical => ?_
    refine (startRecordings_held (K := InState .pressure) (S := fun n t => Within u n t ∨ Starting u n t) closed_starting .inr
      (fun hc => hc) sources identities startMs endMs event critical).conseq (fun w hw => ?_) (fun _ _ hw => ?_) fun _ _ hw => ?_
    · have hroom := (hw.2.pressure hw.1.policy).2
      refine ⟨hw.1.held, hw.1.active, hw.1.policy, hw.1.calm.log, hw.1.calm.reclaiming,
        ⟨hw.1.calm.tables.1, ?_⟩, fun t ht => .inl (hw.1.calm.saved t ht)⟩
      omega
    all_goals
      exact hw.conseq (fun ht _ => .inr ⟨hcritical, ht⟩) fun ht _ => ht.imp_right fun ht => ⟨hcritical, ht⟩
  · exact held_under_of_ne hstate (Triple.strengthen (startRecordings_held closed_anything (fun ht => ht) (fun _ => trivial)
      _ _ _ _ _ _) fun _ hw => hw.1.conseq (fun _ => trivial) fun _ => trivial)

end

theorem run_leaves (o : Operation) :
    Leads (Idle u false (Within u) (Within u)) (o.run u) (Leaving u fun state => Under state (Leaves u o.startsCritical)) :=
  run_spec o closed_within (fun ht _ => .inl ht)
    (fun segment _ _ _ active prior critical => writeSegment_under segment active prior critical _)
    fun sources startMs endMs _ _ ids event => startRecordings_under o.startsCritical sources ids startMs endMs event

/-! ## Runs -/

/-- Between operations, within the allowance. -/
structure World.Allowable (u : Setup) (w : World) : Prop where
  unreserved : w.Unreserved
  tables : Within u 0 w.tables
  saved : ∀ t ∈ w.saved, Within u 0 t

/-- An operation that ends under pressure, and that charges no more than the overhead if it starts a critical
recording, leaves the critical bytes within the allowance. -/
theorem step_allowable {w : World} (act : Act) (hw : w.Allowable u)
    (hstate : (step u act w).2.policy.state = .pressure)
    (hcharge : act.operation.startsCritical = true →
      charged (step u act w).1.log ≤ u.storage.writeOverheadBytes) :
    (step u act w).2.Allowable u := by
  obtain ⟨hidle, hlog⟩ := step_of_run (run_leaves act.operation) hw.unreserved hw.tables hw.saved
  rw [hlog] at hcharge
  have hwithin : ∀ {t}, Leaves u act.operation.startsCritical (charged (step u act w).2.log) t → Within u 0 t := by
    rintro t (ht | ⟨hcritical, ht⟩)
    · exact ht
    · have hroom := ht.2
      have hbound := hcharge hcritical
      exact ⟨ht.1, by omega⟩
  exact ⟨hidle.unreserved, hwithin (hidle.calm.tables hstate), fun t ht => hwithin (hidle.calm.saved t ht hstate)⟩

theorem allowable_start {init : World} (hinit : init.Unreserved) (hsaved : init.saved = none)
    (hreferenced : init.tables.Referenced)
    (husage : (init.tables.usageBytes false true : Int) ≤ u.storage.criticalAllowanceBytes) : init.Allowable u :=
  ⟨hinit, ⟨hreferenced, husage⟩, by simp [hsaved]⟩

/-- In a run under pressure in which no critical start charges more than the overhead, the critical bytes stay within the
allowance, whether an operation returns or raises. -/
theorem critical_bytes_within_allowance {init s : World} {h : List (Event World Act Output)}
    (hinit : init.Unreserved) (hsaved : init.saved = none) (hreferenced : init.tables.Referenced)
    (husage : (init.tables.usageBytes false true : Int) ≤ u.storage.criticalAllowanceBytes)
    (hs : Reaches (step u) init h s)
    (hpressure : init.policy.state = .pressure ∧ ∀ e ∈ h, e.after.policy.state = .pressure)
    (hcharge : ∀ e ∈ h, e.input.operation.startsCritical = true →
      charged e.output.log ≤ u.storage.writeOverheadBytes) :
    ∀ e ∈ h, (e.after.tables.usageBytes false true : Int) ≤ u.storage.criticalAllowanceBytes := by
  have hkept := (hs.forall_after (allowable_start hinit hsaved hreferenced husage) ?_).2
  · exact fun e he => (hkept e he).tables.2
  · intro e he hbefore
    obtain ⟨_, _, heq⟩ := hs.event_of_mem he
    have hstate := hpressure.2 e he
    have hbound := hcharge e he
    rw [heq] at hstate hbound ⊢
    exact step_allowable e.input hbefore hstate hbound

/-! ## Starts that the tables leave room for -/

/-- A row of the spool that the start of a recording of one of the sources links. -/
def SegmentRow.spooledIn (sources : List UUID) (startMs endMs : Int) (s : SegmentRow) : Bool :=
  sources.contains s.source && s.state == .ready && s.spool && overlaps s.startMs s.endMs startMs endMs

/-- The bytes of the spool that the operation would make critical: ready, in its windows and not critical yet. -/
def Tables.uncharged (t : Tables) (o : Operation) : Nat :=
  match o.starts with
  | some (sources, startMs, endMs) => t.bytes fun s => s.spooledIn sources startMs endMs && !t.isCritical s
  | none => 0

/-- The critical bytes and those of the windows are within the allowance. -/
def Covered (u : Setup) (sources : List UUID) (startMs endMs : Int) : Demand := fun _ t =>
  t.Referenced ∧
    (t.bytes (fun s => t.isCritical s || s.spooledIn sources startMs endMs) : Int) ≤ u.storage.criticalAllowanceBytes

section Covered

variable {sources : List UUID} {startMs endMs : Int} {K : Policy → Option Space → Prop} {recording : UUID}
  {segments : List UUID}

theorem Covered.within (h : Covered u sources startMs endMs n t) : Within u 0 t := by
  refine ⟨h.1, le_trans ?_ h.2⟩
  rw [Tables.usageBytes_critical]
  exact_mod_cast rowBytes_le fun s _ hs => by simp_all

theorem or_mono {p b b' : Bool} (hb : b = true → b' = true) (h : (b || p) = true) : (b' || p) = true := by
  rw [Bool.or_eq_true] at h ⊢
  exact h.imp_left hb

theorem closed_covered : Closed u false Change.Edits (Covered u sources startMs endMs) where
  mono := fun _ _ _ _ ht => ht
  change := by
    intro c n t hc hallowed ht
    refine ⟨ht.1.apply hallowed, le_trans ?_ ht.2⟩
    exact_mod_cast Tables.bytes_edits_le (g := fun s b => b || s.spooledIn sources startMs endMs) hc
      or_mono (by simp [SegmentRow.spooledIn]) fun hs => hs
  entries := fun _ _ _ => entries_ok

theorem Covered.insertRecording {row : RecordingRow} {m : Nat} (hallowed : t.allows (.insertRecording row) = true)
    (h : Covered u sources startMs endMs n t) : Covered u sources startMs endMs m (t.apply (.insertRecording row)) := by
  refine ⟨h.1.apply hallowed, le_trans ?_ h.2⟩
  exact Nat.cast_le.2 (Tables.bytes_mono (g := fun s b => b || s.spooledIn sources startMs endMs) rfl
    (fun _ => Tables.isCritical_of_insertRecording h.1) or_mono)

/-- Links to segments of the windows make nothing critical that was not counted. -/
theorem Covered.link {m : Nat} (hallowed : t.allows (.link recording segments) = true)
    (h : Covered u sources startMs endMs n t)
    (hsegments : ∀ s ∈ t.segments.rows, s.id ∈ segments → s.spooledIn sources startMs endMs = true) :
    Covered u sources startMs endMs m (t.apply (.link recording segments)) := by
  refine ⟨h.1.apply hallowed, le_trans ?_ h.2⟩
  refine Nat.cast_le.2 (rowBytes_le fun s hs hp => ?_)
  rw [Bool.or_eq_true, Tables.isCritical_iff] at hp ⊢
  rcases hp with (hpending | hlinked) | hwindow
  · exact .inl (.inl hpending)
  · exact (Tables.linked_link hlinked).imp .inr fun hnew => hsegments s hs hnew.1
  · exact .inr hwindow

theorem startSource_covered {source : UUID} (hsource : source ∈ sources) (event : Option UUID) (critical : Bool) :
    Keeps (Held u K false (Covered u sources startMs endMs) (Covered u sources startMs endMs))
      (startSource u startMs endMs event critical source id) := by
  have hquery : ∀ {β : Type} (f : Tables → β),
      Keeps (Held u K false (Covered u sources startMs endMs) (Covered u sources startMs endMs)) (query f) :=
    Reserved.steady.keeps_query
  refine .bind (hquery _) fun _ => .bind keeps_require fun _ => .bind (exec_spec closed_covered.mono
    (fun hallowed ht => ht.insertRecording hallowed) fun _ _ => entries_ok) fun _ => .bind (Reserved.steady.query _)
    fun spool => .bind ((exec_spec (R := fun n t => Covered u sources startMs endMs n t ∧ ∀ s ∈ t.segments.rows,
      s.id ∈ spool → s.spooledIn sources startMs endMs = true) closed_covered.mono
      (fun hallowed ht => ht.1.link hallowed ht.2) fun _ _ => entries_ok).conseq ?_ (fun _ _ hw => hw)
      fun _ _ hw => hw.conseq And.left fun ht => ht) fun _ => .bind (hquery _) fun _ => closed_covered.keeps_exec trivial
  rintro w ⟨hw, rfl⟩
  refine ⟨hw.held, hw.active, hw.policy, hw.calm.log, hw.calm.reclaiming, ⟨hw.calm.tables, fun s hs hid => ?_⟩,
    hw.calm.saved⟩
  obtain ⟨s', hs', heq⟩ := List.mem_map.mp hid
  obtain ⟨hmem, hspooled⟩ := List.mem_filter.mp hs'
  obtain rfl := Table.eq_of_key hmem hs heq
  simp only [Bool.and_eq_true, beq_iff_eq] at hspooled
  simp [SegmentRow.spooledIn, hspooled, hsource]

theorem startRecordings_covered (identities : List UUID) (event : Option UUID) (critical : Bool) :
    Keeps (Held u K false (Covered u sources startMs endMs) (Covered u sources startMs endMs))
      (startRecordings u sources identities startMs endMs event critical) := by
  have hquery : ∀ {β : Type} (f : Tables → β),
      Keeps (Held u K false (Covered u sources startMs endMs) (Covered u sources startMs endMs)) (query f) :=
    Reserved.steady.keeps_query
  refine keeps_transaction (fun ht => ht) (.bind (hquery _) fun _ => .bind keeps_require fun _ => .bind (hquery _) fun _ =>
    .bind keeps_require fun _ => .bind ((Triple.forEach (I := fun rest w =>
      Held u K false (Covered u sources startMs endMs) (Covered u sources startMs endMs) w ∧ ∀ p ∈ rest, p.1 ∈ sources)
      (fun p rest => ?_) _).conseq (fun w hw => ⟨hw, fun p hp => (List.of_mem_zip hp).1⟩) (fun _ _ hw => hw.1)
      fun _ _ hw => hw) fun _ => .pure fun _ hw => hw)
  refine .of_fact (fun w hw => hw.2) fun hrest => ?_
  exact Triple.conseq (startSource_covered (hrest p List.mem_cons_self) event critical) (fun _ hw => hw.1)
    (fun _ _ hw => ⟨hw, fun q hq => hrest q (List.mem_cons_of_mem _ hq)⟩) fun _ _ hw => hw

end Covered

/-- The tables, and those that an open transaction would bring back, have room for the windows of the operation. -/
def World.HasRoom (u : Setup) (o : Operation) (w : World) : Prop :=
  ∀ t, t = w.tables ∨ t ∈ w.saved →
    (t.usageBytes false true + t.uncharged o : Int) ≤ u.storage.criticalAllowanceBytes

/-- A critical start for which there is room keeps the critical bytes within the allowance, in any state of the policy. -/
theorem step_covered {w : World} {act : Act} (hw : w.Allowable u) (hcritical : act.operation.startsCritical = true)
    (hroom : w.HasRoom u act.operation) : (step u act w).2.Allowable u := by
  cases hstarts : act.operation.starts with
  | none => cases hoperation : act.operation <;> simp_all [Operation.starts, Operation.startsCritical]
  | some window =>
    obtain ⟨sources, startMs, endMs⟩ := window
    have hcovered {t : Tables} (ht : t = w.tables ∨ t ∈ w.saved) (hreferenced : t.Referenced) :
        Covered u sources startMs endMs 0 t := by
      refine ⟨hreferenced, le_trans ?_ (hroom t ht)⟩
      rw [Tables.usageBytes_critical, Tables.uncharged, hstarts]
      exact_mod_cast rowBytes_le_add fun s _ hs => by cases h : t.isCritical s <;> simp_all
    have hrun : Leads (Idle u false _ _) (act.operation.run u) (Leaving u fun _ => Covered u sources startMs endMs) :=
      run_spec act.operation closed_covered (fun ht => ht)
        (fun segment id happend => by rw [happend] at hstarts; cases hstarts) fun sources' startMs' endMs' hstarts' _ ids event => by
          cases hstarts.symm.trans hstarts'
          exact Triple.strengthen (startRecordings_covered ids event _) fun _ hw => hw.1
    obtain ⟨hidle, -⟩ := step_of_run hrun hw.unreserved (hcovered (.inl rfl) hw.tables.1)
      fun t ht => hcovered (.inr ht) (hw.saved t ht).1
    exact ⟨hidle.unreserved, hidle.calm.tables.within, fun t ht => (hidle.calm.saved t ht).within⟩

/-- The condition on the tables before the starts: in a run under pressure in which the critical bytes and the ready spooled
bytes in the windows of a critical start that are not critical yet are within the allowance before it, the critical bytes stay
within the allowance. -/
theorem critical_bytes_within_allowance_of_room {init s : World} {h : List (Event World Act Output)}
    (hinit : init.Unreserved) (hsaved : init.saved = none) (hreferenced : init.tables.Referenced)
    (husage : (init.tables.usageBytes false true : Int) ≤ u.storage.criticalAllowanceBytes)
    (hs : Reaches (step u) init h s)
    (hpressure : init.policy.state = .pressure ∧ ∀ e ∈ h, e.after.policy.state = .pressure)
    (hroom : ∀ e ∈ h, e.input.operation.startsCritical = true → e.before.HasRoom u e.input.operation) :
    ∀ e ∈ h, (e.after.tables.usageBytes false true : Int) ≤ u.storage.criticalAllowanceBytes := by
  have hkept := (hs.forall_after (allowable_start hinit hsaved hreferenced husage) ?_).2
  · exact fun e he => (hkept e he).tables.2
  · intro e he hbefore
    obtain ⟨_, _, heq⟩ := hs.event_of_mem he
    have hstate := hpressure.2 e he
    have hroom := hroom e he
    rw [heq] at hstate ⊢
    by_cases hcritical : e.input.operation.startsCritical = true
    · exact step_covered hbefore hcritical (hroom hcritical)
    · exact step_allowable e.input hbefore hstate fun h => absurd h hcritical

/-- A spooled segment, after which the allocation is above the recovery threshold. -/
def spooling : Tables where
  segments := Table.empty.insert
    { id := 7, source := 1, stream := 1, sequence := 0, startMs := 0, endMs := 1000, byteLength := 600,
      state := .ready, spool := true, integrity := .verified }

/-- A critical recording of the source that no spooled segment overlaps, and a segment of it. -/
def chargedInFull : List Act :=
  [⟨.startEvent 9 [1] 40000 30000 1000 true fun _ => 4, roomy⟩,
    ⟨.append ⟨1, 1, 1, 40000, 40500, 20⟩ 8, roomy⟩]

theorem critical_bytes_within_allowance_charged :
    ((perform (step smallSetup) (.resting .pressure spooling) chargedInFull).1.all fun e =>
      e.output.result.toBool) = true ∧
    ∀ e ∈ (perform (step smallSetup) (.resting .pressure spooling) chargedInFull).1,
      (e.after.tables.usageBytes false true : Int) ≤ smallSetup.storage.criticalAllowanceBytes :=
  ⟨by decide +kernel, critical_bytes_within_allowance ⟨rfl, rfl, rfl, rfl⟩ rfl (by decide +kernel) (by decide +kernel)
    (.perform _ _ _) (by decide +kernel) (by decide +kernel)⟩

/-- A critical recording whose window holds the spooled segment. -/
def linksSpool : List Act := [⟨.startEvent 9 [1] 1000 1000 1000 true fun _ => 4, roomy⟩]

/-- Under pressure throughout and from no critical byte, a critical start succeeds and leaves six times the
allowance. -/
theorem critical_start_exceeds_allowance :
    (World.resting .pressure spooling).tables.usageBytes false true = 0 ∧
      smallSetup.storage.criticalAllowanceBytes = 100 ∧
      ∃ e, (perform (step smallSetup) (.resting .pressure spooling) linksSpool).1 = [e] ∧
        e.output.result.toBool = true ∧ e.after.policy.state = .pressure ∧
        e.after.tables.usageBytes false true = 600 :=
  ⟨by decide +kernel, rfl, _, rfl, by decide +kernel, by decide +kernel, by decide +kernel⟩

end Sentinel.Recording
