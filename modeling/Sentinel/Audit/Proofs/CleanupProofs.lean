import Sentinel.Audit.Cleanup

/-!
# Retention removes exactly the expired rows

A deletion removes as many expired rows as its limit allows. A batch whose removals fall short of its size has met no limit, so
nothing expired is left in either table; a full batch removes at least one row, so the loop ends.
-/

namespace Sentinel.Audit

open Calendar

/-! ## One deletion -/

section Delete

variable {R : Type} {id : R → Nat} {le : R → R → Bool} {expired : R → Bool} {limit : Nat} {rows : List R}

theorem mem_selectOldest {r : R} (h : r ∈ selectOldest le expired limit rows) : r ∈ rows ∧ expired r = true :=
  List.mem_filter.1 ((List.mem_insertionSort _).1 (List.mem_of_mem_take h))

theorem filter_selected_perm (h : (rows.map id).Nodup) :
    (rows.filter fun r => ((selectOldest le expired limit rows).map id).contains (id r)).Perm
      (selectOldest le expired limit rows) := by
  have hrows : rows.Nodup := h.of_map id
  have hselected : (selectOldest le expired limit rows).Nodup :=
    ((List.perm_insertionSort _ _).nodup_iff.2 (hrows.filter _)).sublist (List.take_sublist _ _)
  refine (List.perm_ext_iff_of_nodup (hrows.filter _) hselected).2 ?_
  intro r
  rw [List.mem_filter, List.contains_iff_mem, List.mem_map]
  constructor
  · rintro ⟨hr, r', hr', hid⟩
    rw [← List.inj_on_of_nodup_map h (mem_selectOldest hr').1 hr hid]
    exact hr'
  · intro hr
    exact ⟨(mem_selectOldest hr).1, r, hr, rfl⟩

/-- What a deletion does. -/
structure Deleted (expired : R → Bool) (limit : Nat) (rows rows' : List R) (removed : Nat) : Prop where
  sublist : rows'.Sublist rows
  kept : ∀ r ∈ rows, expired r = false → r ∈ rows'
  size : rows'.length + removed = rows.length
  expiring : rows'.countP expired + removed = rows.countP expired
  limited : removed = min limit (rows.countP expired)

theorem deleteOldest_deleted (h : (rows.map id).Nodup) :
    Deleted expired limit rows (deleteOldest id le expired limit rows).1 (deleteOldest id le expired limit rows).2 := by
  have hperm := @filter_selected_perm R id le expired limit rows h
  have hcount : (deleteOldest id le expired limit rows).2 = (selectOldest le expired limit rows).length := by
    rw [← hperm.length_eq, ← List.countP_eq_length_filter]
    rfl
  have hkept : ∀ r ∈ rows, expired r = false → r ∈ (deleteOldest id le expired limit rows).1 := by
    intro r hr hfresh
    refine List.mem_filter.2 ⟨hr, ?_⟩
    rw [Bool.not_eq_true', ← Bool.not_eq_true]
    intro hselected
    have := (mem_selectOldest (hperm.mem_iff.1 (List.mem_filter.2 ⟨hr, hselected⟩))).2
    rw [hfresh] at this
    cases this
  let selected (r : R) : Bool := ((selectOldest le expired limit rows).map id).contains (id r)
  refine ⟨List.filter_sublist, hkept, ?_, ?_, ?_⟩
  · have hsplit := List.length_eq_countP_add_countP selected (l := rows)
    have hleft : (deleteOldest id le expired limit rows).1.length = rows.countP fun r => decide ¬selected r = true := by
      rw [deleteOldest, ← List.countP_eq_length_filter]
      refine List.countP_congr ?_
      intro r _
      simp [selected]
    rw [hleft, hsplit]
    exact Nat.add_comm _ _
  · have hall : (rows.filter selected).countP expired = (rows.filter selected).length := by
      refine List.countP_eq_length.2 ?_
      intro r hr
      exact (mem_selectOldest (hperm.mem_iff.1 hr)).2
    have hsplit := List.countP_eq_countP_filter_add rows expired selected
    rw [hall, ← List.countP_eq_length_filter] at hsplit
    rw [hsplit, Nat.add_comm]
    rfl
  · rw [hcount, selectOldest, List.length_take, List.length_insertionSort, List.countP_eq_length_filter]

end Delete

/-! ## One batch -/

variable {store : AuditStore} {reference cutoff : Datetime} {tables tables' tables'' : Tables} {removed removed' : Nat}

/-- The rows before a cutoff, in both tables. -/
def expiredRows (cutoff : Datetime) (tables : Tables) : Nat :=
  tables.records.countP (fun r => r.occurredAtUs < microseconds cutoff) +
    tables.integrity.countP fun r => r.atText < cutoff.isoformat

/-- Some rows before a cutoff are removed, and no others. -/
structure Trimmed (cutoff : Datetime) (tables tables' : Tables) (removed : Nat) : Prop where
  records : tables'.records.Sublist tables.records
  integrity : tables'.integrity.Sublist tables.integrity
  records_kept : ∀ r ∈ tables.records, ¬r.occurredAtUs < microseconds cutoff → r ∈ tables'.records
  integrity_kept : ∀ r ∈ tables.integrity, ¬r.atText < cutoff.isoformat → r ∈ tables'.integrity
  size : tables'.size + removed = tables.size
  expiring : expiredRows cutoff tables' + removed = expiredRows cutoff tables

theorem Trimmed.refl (cutoff : Datetime) (tables : Tables) : Trimmed cutoff tables tables 0 :=
  ⟨.refl _, .refl _, fun _ hr _ => hr, fun _ hr _ => hr, rfl, rfl⟩

theorem Trimmed.trans (h : Trimmed cutoff tables tables' removed) (h' : Trimmed cutoff tables' tables'' removed') :
    Trimmed cutoff tables tables'' (removed + removed') where
  records := h'.records.trans h.records
  integrity := h'.integrity.trans h.integrity
  records_kept := fun r hr hfresh => h'.records_kept r (h.records_kept r hr hfresh) hfresh
  integrity_kept := fun r hr hfresh => h'.integrity_kept r (h.integrity_kept r hr hfresh) hfresh
  size := by
    have := h.size
    have := h'.size
    omega
  expiring := by
    have := h.expiring
    have := h'.expiring
    omega

theorem Trimmed.eq_of_none (h : Trimmed cutoff tables tables' 0) : tables' = tables := by
  have hsize := h.size
  have hrecords := h.records.length_le
  have hintegrity := h.integrity.length_le
  unfold Tables.size at hsize
  exact Tables.ext (h.records.eq_of_length (by omega)) (h.integrity.eq_of_length (by omega))

/-- A batch removes as many expired rows as its size allows, from the two tables together. -/
theorem cleanupExpiredBatch_spec (hcutoff : minus reference store.retention = some cutoff) (tables : Tables) :
    ∃ tables' removed, cleanupExpiredBatch store reference tables = .ok (tables', removed) ∧
      Trimmed cutoff tables tables' removed ∧ removed = min store.cleanupBatchSize (expiredRows cutoff tables) := by
  have hrecords : Deleted (fun r => r.occurredAtUs < microseconds cutoff) store.cleanupBatchSize tables.records
      (deleteRecords cutoff store.cleanupBatchSize tables.records).1
      (deleteRecords cutoff store.cleanupBatchSize tables.records).2 := deleteOldest_deleted tables.records_nodup
  have hkept := fun r hr hfresh => hrecords.kept r hr (decide_eq_false hfresh)
  have hlimited := hrecords.limited
  have hsize := hrecords.size
  have hexpiring := hrecords.expiring
  unfold cleanupExpiredBatch
  rw [hcutoff]
  dsimp only
  by_cases hremaining : store.cleanupBatchSize - (deleteRecords cutoff store.cleanupBatchSize tables.records).2 = 0
  · rw [if_neg (not_not.2 hremaining)]
    refine ⟨_, _, rfl, ⟨hrecords.sublist, .refl _, hkept, fun _ hr _ => hr, ?_, ?_⟩, ?_⟩
    all_goals
      simp only [Tables.size, expiredRows]
      omega
  · rw [if_pos hremaining]
    have hintegrity : Deleted (fun r => r.atText < cutoff.isoformat)
        (store.cleanupBatchSize - (deleteRecords cutoff store.cleanupBatchSize tables.records).2) tables.integrity
        (deleteIntegrity cutoff _ tables.integrity).1 (deleteIntegrity cutoff _ tables.integrity).2 :=
      deleteOldest_deleted tables.integrity_nodup
    have hkept' := fun r hr hfresh => hintegrity.kept r hr (decide_eq_false hfresh)
    have hlimited' := hintegrity.limited
    have hsize' := hintegrity.size
    have hexpiring' := hintegrity.expiring
    refine ⟨_, _, rfl, ⟨hrecords.sublist, hintegrity.sublist, hkept, hkept', ?_, ?_⟩, ?_⟩
    all_goals
      simp only [Tables.size, expiredRows]
      omega

/-! ## Runs -/

/-- What a run of batches does: it trims the tables by what it counts, and when it returns nothing expired is left. -/
theorem cleanupLoop_spec (hcutoff : minus reference store.retention = some cutoff) (batches : Nat) :
    ∀ (tables : Tables) (deleted : Nat), ∃ removed,
      Trimmed cutoff tables (cleanupLoop store reference batches tables deleted).tables removed ∧
      (cleanupLoop store reference batches tables deleted).deleted = deleted + removed ∧
      (expiredRows cutoff tables < batches → ∃ tables' deleted', expiredRows cutoff tables' = 0 ∧
        cleanupLoop store reference batches tables deleted = .returned tables' deleted') := by
  induction batches with
  | zero => exact fun tables deleted => ⟨0, .refl _ _, rfl, fun h => absurd h (Nat.not_lt_zero _)⟩
  | succ batches ih =>
    intro tables deleted
    obtain ⟨tables', removed, hbatch, htrimmed, hremoved⟩ := cleanupExpiredBatch_spec hcutoff tables
    have hexpiring := htrimmed.expiring
    have hbatchSize := store.batch_mem.1
    rw [cleanupLoop, hbatch]
    dsimp only
    by_cases hshort : removed < store.cleanupBatchSize
    · rw [if_pos hshort]
      refine ⟨removed, htrimmed, rfl, fun _ => ⟨tables', _, ?_, rfl⟩⟩
      omega
    · rw [if_neg hshort]
      obtain ⟨removed', htrimmed', hdeleted, hreturns⟩ := ih tables' (deleted + removed)
      refine ⟨removed + removed', htrimmed.trans htrimmed', by rw [hdeleted, Nat.add_assoc], fun henough => hreturns ?_⟩
      omega

theorem interruptedRuns_spec (hcutoff : minus reference store.retention = some cutoff) (interruptions : List Nat) :
    ∀ tables : Tables, Trimmed cutoff tables (interruptedRuns store reference interruptions tables).1
      (interruptedRuns store reference interruptions tables).2 := by
  induction interruptions with
  | nil => exact fun tables => .refl _ _
  | cons batches rest ih =>
    intro tables
    obtain ⟨removed, htrimmed, hdeleted, -⟩ := cleanupLoop_spec hcutoff batches tables 0
    rw [Nat.zero_add] at hdeleted
    have hrun := htrimmed.trans (ih _)
    rw [← hdeleted] at hrun
    exact hrun

theorem cleanupExpired_of_overflow (hcutoff : minus reference store.retention = none) (batches : Nat) (tables : Tables) :
    cleanupExpired store reference (batches + 1) tables = .raised tables .overflow := by
  rw [cleanupExpired, cleanupLoop, cleanupExpiredBatch, hcutoff]

theorem interruptedRuns_of_overflow (hcutoff : minus reference store.retention = none) (interruptions : List Nat) :
    ∀ tables : Tables, interruptedRuns store reference interruptions tables = (tables, 0) := by
  induction interruptions with
  | nil => exact fun tables => rfl
  | cons batches rest ih =>
    intro tables
    have hrun : (cleanupExpired store reference batches tables).tables = tables ∧
        (cleanupExpired store reference batches tables).deleted = 0 := by
      cases batches with
      | zero => exact ⟨rfl, rfl⟩
      | succ batches =>
        rw [cleanupExpired_of_overflow hcutoff]
        exact ⟨rfl, rfl⟩
    rw [interruptedRuns, hrun.1, hrun.2, ih]
    rfl

/-! ## Times -/

theorem minus_spec (reference : Datetime) (retention : Nat) :
    (∃ cutoff, minus reference retention = some cutoff ∧ cutoff.count + retention = reference.count) ∨
    minus reference retention = none ∧ reference.count < retention := by
  unfold minus
  by_cases hle : retention ≤ reference.count
  · rw [if_pos hle]
    obtain ⟨cutoff, hcutoff, hcount⟩ := @ofCount_of_lt (reference.count - retention) ((Nat.sub_le _ _).trans_lt reference.count_lt)
    exact .inl ⟨cutoff, hcutoff, by omega⟩
  · exact .inr ⟨if_neg hle, not_le.1 hle⟩

theorem SecurityAuditRow.older_iff (row : SecurityAuditRow) (hcutoff : cutoff.count + store.retention = reference.count) :
    row.Older reference store.retention ↔ row.occurredAtUs < microseconds cutoff := by
  unfold SecurityAuditRow.Older microseconds
  constructor
  · rintro ⟨time, htime, holder⟩
    omega
  · intro hlt
    obtain ⟨time, htime⟩ := row.written
    refine ⟨time, htime, ?_⟩
    unfold microseconds at htime
    omega

theorem IntegrityAuditRow.older_iff (row : IntegrityAuditRow) (hcutoff : cutoff.count + store.retention = reference.count) :
    row.Older reference store.retention ↔ row.atText < cutoff.isoformat := by
  constructor
  · rintro ⟨time, htime, holder⟩
    refine htime.lt_isoformat_iff.2 ?_
    omega
  · intro hlt
    obtain ⟨time, htime⟩ := row.written
    refine ⟨time, htime, ?_⟩
    have := htime.lt_isoformat_iff.1 hlt
    omega

/-- The rows of a table that are not strictly older are left, and no others. -/
structure Retained (store : AuditStore) (reference : Datetime) (tables tables' : Tables) : Prop where
  records : ∀ r, r ∈ tables'.records ↔ r ∈ tables.records ∧ ¬r.Older reference store.retention
  integrity : ∀ r, r ∈ tables'.integrity ↔ r ∈ tables.integrity ∧ ¬r.Older reference store.retention

theorem Trimmed.retained (hcutoff : cutoff.count + store.retention = reference.count)
    (h : Trimmed cutoff tables tables' removed) (hnone : expiredRows cutoff tables' = 0) :
    Retained store reference tables tables' := by
  obtain ⟨hrecords, hintegrity⟩ := Nat.add_eq_zero_iff.1 hnone
  rw [List.countP_eq_zero] at hrecords hintegrity
  refine ⟨fun r => ?_, fun r => ?_⟩
  · rw [r.older_iff hcutoff]
    refine ⟨fun hr => ⟨h.records.mem hr, ?_⟩, fun hr => h.records_kept r hr.1 hr.2⟩
    simpa using hrecords r hr
  · rw [r.older_iff hcutoff]
    refine ⟨fun hr => ⟨h.integrity.mem hr, ?_⟩, fun hr => h.integrity_kept r hr.1 hr.2⟩
    simpa using hintegrity r hr

theorem cleanupExpired_of_none (hcutoff : minus reference store.retention = some cutoff) (hnone : expiredRows cutoff tables = 0)
    (batches : Nat) : (cleanupExpired store reference batches tables).tables = tables ∧
      (cleanupExpired store reference batches tables).deleted = 0 := by
  obtain ⟨removed, htrimmed, hdeleted, -⟩ := cleanupLoop_spec hcutoff batches tables 0
  have hexpiring := htrimmed.expiring
  obtain rfl : removed = 0 := by omega
  exact ⟨htrimmed.eq_of_none, hdeleted⟩

/-- After any interrupted runs, a run with enough batches ends. It returns, or, if the reference less the retention is no
instant of the calendar, raises; either way the rows that are left are exactly those not strictly older than the reference
less the retention, the rows counted by all the runs are the rows removed, and another run changes nothing. -/
theorem cleanup_removes_exactly_expired (store : AuditStore) (reference : Datetime) (tables : Tables) (interruptions : List Nat) :
    let before := interruptedRuns store reference interruptions tables
    ∃ enough, ∀ batches ≥ enough,
      let last := cleanupExpired store reference batches before.1
      (store.retention ≤ reference.count → last = .returned last.tables last.deleted) ∧
      (reference.count < store.retention → last = .raised tables .overflow) ∧
      (∀ r, r ∈ last.tables.records ↔ r ∈ tables.records ∧ ¬r.Older reference store.retention) ∧
      (∀ r, r ∈ last.tables.integrity ↔ r ∈ tables.integrity ∧ ¬r.Older reference store.retention) ∧
      last.tables.size + (before.2 + last.deleted) = tables.size ∧
      (cleanupExpired store reference batches last.tables).tables = last.tables ∧
      (cleanupExpired store reference batches last.tables).deleted = 0 := by
  intro before
  rcases minus_spec reference store.retention with ⟨cutoff, hcutoff, hcount⟩ | ⟨hcutoff, hlt⟩
  · have hbefore : Trimmed cutoff tables before.1 before.2 := interruptedRuns_spec hcutoff interruptions tables
    refine ⟨expiredRows cutoff before.1 + 1, fun batches henough => ?_⟩
    intro last
    obtain ⟨removed, htrimmed, hdeleted, hreturns⟩ := cleanupLoop_spec hcutoff batches before.1 0
    obtain ⟨tables', deleted', hnone, hreturned⟩ := hreturns henough
    have hlast : last = .returned tables' deleted' := hreturned
    rw [hreturned] at htrimmed hdeleted
    have hall := hbefore.trans htrimmed
    have hsize := hall.size
    have hretained := hall.retained hcount hnone
    rw [hlast]
    refine ⟨fun _ => rfl, fun hlt => by omega, hretained.records, hretained.integrity, ?_,
      cleanupExpired_of_none hcutoff hnone batches⟩
    simp only [Run.tables, Run.deleted] at hsize hdeleted ⊢
    omega
  · have hbefore : before = (tables, 0) := interruptedRuns_of_overflow hcutoff interruptions tables
    refine ⟨1, fun batches henough => ?_⟩
    intro last
    obtain ⟨batches, rfl⟩ := Nat.exists_eq_add_of_le' henough
    have hlast : last = .raised tables .overflow := by
      rw [← cleanupExpired_of_overflow hcutoff batches tables]
      simp only [last, hbefore]
    rw [hlast, hbefore]
    have hfresh : ∀ n, ¬n + store.retention < reference.count := fun n => by omega
    refine ⟨fun hle => absurd hlt (not_lt.2 hle), fun _ => rfl, fun r => ?_, fun r => ?_, rfl, ?_, ?_⟩
    · exact ⟨fun hr => ⟨hr, fun ⟨_, _, holder⟩ => hfresh _ holder⟩, And.left⟩
    · exact ⟨fun hr => ⟨hr, fun ⟨_, _, holder⟩ => hfresh _ holder⟩, And.left⟩
    · exact congrArg Run.tables (cleanupExpired_of_overflow hcutoff batches tables)
    · exact congrArg Run.deleted (cleanupExpired_of_overflow hcutoff batches tables)

end Sentinel.Audit
