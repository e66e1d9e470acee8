import Sentinel.Recording.Proofs.AllowanceProofs

/-!
# The recordings stay within their allocation

An admission counts the request into what is stored, after reclamation. In the normal state both are below the recording limit;
under pressure they are within the limit and the critical allowance. Only the journal entry of an admitted segment adds bytes, so
no run exceeds the limit and the allowance together.
-/

namespace Sentinel.Recording

open Program

variable {u : Setup} {t : Tables} {c : Change} {id : UUID} {media : Nat}

/-- What is stored leaves room for so many bytes. -/
def Room (u : Setup) (media : Nat) : Demand := fun _ t => (t.usageBytes false false + media : Int) ≤ u.allocation

theorem Tables.usageBytes_all (t : Tables) : t.usageBytes false false = rowBytes (fun _ => true) t.segments.rows := by
  simp [Tables.usageBytes, Tables.bytes, rowBytes]

theorem Tables.usageBytes_apply_le (hc : ∀ row, c ≠ .journal row) :
    (t.apply c).usageBytes false false ≤ t.usageBytes false false := by
  rw [Tables.usageBytes_all, Tables.usageBytes_all]
  cases c with
  | journal row => exact absurd rfl (hc row)
  | publish segment | unspool ids | setIntegrity segment integrity =>
    refine rowBytes_map_le (fun s => ?_) fun _ _ _ => rfl
    split <;> rfl
  | deleteSegment segment => exact rowBytes_filter_le fun _ _ h => h
  | _ => exact Nat.le_refl _

theorem closed_room : Closed u false (fun c => ∀ row, c ≠ .journal row) (Room u media) where
  mono := fun _ _ _ _ ht => ht
  change := by
    intro c n t hc _ ht
    have hle := Tables.usageBytes_apply_le (t := t) hc
    unfold Room at *
    omega
  entries := fun _ _ _ => entries_ok

theorem closed_edits : Closed u false Change.Edits (Room u media) :=
  closed_room.restrict fun hc row heq => by
    rw [heq] at hc
    exact hc

variable {critical : Bool}

theorem room_of_journal {segment : Segment} {n m : Nat} (hallowed : t.allows (.journal (segment.row id critical)) = true)
    (h : Room u segment.byteLength n t) : Room u 0 m (t.apply (.journal (segment.row id critical))) := by
  simp only [Tables.allows, Bool.and_eq_true, decide_eq_true_eq] at hallowed
  have hrows : (t.apply (.journal (segment.row id critical))).segments.rows = t.segments.rows ++ [segment.row id critical] :=
    Table.rows_insert hallowed.1
  have hsum : (t.apply (.journal (segment.row id critical))).usageBytes false false =
      t.usageBytes false false + segment.byteLength := by
    rw [Tables.usageBytes_all, Tables.usageBytes_all, hrows]
    simp [rowBytes, Segment.row]
  unfold Room at *
  omega

/-! ## Operations -/

/-- An admitted segment fills the room that its admission found. -/
theorem writeSegment_room (segment : Segment) (active : List RecordingRow) (prior : Option Cursor) (critical : Bool)
    {K : Policy → Option Space → Prop} :
    Leads (fun w => Held u K false (Room u 0) (Room u 0) w ∧ Allowed u segment.byteLength critical w)
      (writeSegment u id segment active prior critical) (Held u K false (Room u 0) (Room u 0)) := by
  refine Triple.strengthen (P := Held u K false (fun n t => Room u 0 n t ∧ Room u segment.byteLength n t) (Room u 0))
    (writeSegment_held closed_room (fun ht => ht) (fun ht => ht) (fun hc row heq => by rw [heq] at hc; exact hc)
      (transaction_held And.left And.left (fun ht => ht) ((exec_spec (fun _ _ _ _ ht => ht)
        (fun hallowed ht => room_of_journal hallowed ht.2) fun _ _ => entries_ok).raising
          fun _ _ hw => hw.conseq And.left fun ht => ht))) ?_
  rintro w ⟨hw, hallowed⟩
  exact ⟨hw.held, hw.active, hw.policy, hw.calm.log, hw.calm.reclaiming, ⟨hw.calm.tables, hallowed.room⟩, hw.calm.saved⟩

theorem run_room (o : Operation) : Keeps (Idle u false (Room u 0) (Room u 0)) (o.run u) :=
  run_spec (Q := fun _ => Room u 0) o closed_edits (fun ht => ht)
    (fun segment _ _ _ active prior critical => writeSegment_room segment active prior critical)
    fun _ _ _ _ _ _ _ => Triple.strengthen (startRecordings_held closed_room (fun ht => ht)
      (fun hc row heq => by rw [heq] at hc; exact hc) _ _ _ _ _ _) fun _ hw => hw.1

/-- In every run, whatever raises, the bytes stored stay within the recording limit and the critical allowance, and so do those
that a rollback would bring back. -/
theorem stored_bytes_within_allocation {init s : World} {h : List (Event World Act Output)} (hinit : init.Unreserved)
    (hsaved : init.saved = none) (htables : (init.tables.usageBytes false false : Int) ≤ u.allocation)
    (hs : Reaches (step u) init h s) :
    (s.tables.usageBytes false false : Int) ≤ u.allocation ∧
      ∀ t ∈ s.saved, (t.usageBytes false false : Int) ≤ u.allocation := by
  have hkept : s.Unreserved ∧ Room u 0 0 s.tables ∧ ∀ t ∈ s.saved, Room u 0 0 t := by
    refine hs.invariant (P := fun w => w.Unreserved ∧ Room u 0 0 w.tables ∧ ∀ t ∈ w.saved, Room u 0 0 t)
      ⟨hinit, by simpa [Room] using htables, by simp [hsaved]⟩ ?_
    rintro act w ⟨hw, htables, hsaved⟩
    obtain ⟨hidle, -⟩ := step_of_run (run_room act.operation) hw htables hsaved
    exact ⟨hidle.unreserved, hidle.calm.tables, hidle.calm.saved⟩
  simpa [Room] using hkept.2

theorem stored_bytes_within_allocation_appending :
    (perform (step smallSetup) (.resting .normal nearlyFull) appending).2.tables.usageBytes false false = 200 ∧
    ((perform (step smallSetup) (.resting .normal nearlyFull) appending).2.tables.usageBytes false false : Int) ≤ 1100 :=
  ⟨by decide +kernel, (stored_bytes_within_allocation ⟨rfl, rfl, rfl, rfl⟩ rfl (by decide) (.perform _ _ _)).1⟩

end Sentinel.Recording
