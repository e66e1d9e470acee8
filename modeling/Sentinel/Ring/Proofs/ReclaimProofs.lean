import Sentinel.Ring.Evidence
import Sentinel.Ring.Proofs.RunProofs

/-!
# What a call may reclaim

Stored media is removed only after the same call marked its row, and the row is marked only under
trusted time, with no loss pending, outside the pre-loss window and outside the selected duration.
-/

namespace Sentinel.Ring

variable {s : Settings} {c : Ctx} {l l₀ : Ledger} {action : Action} {row : Segment}

/-! ## One change -/

/-- The segment is kept by the ring: it was written, and its deletion has not begun. -/
def Segment.Kept (row : Segment) : Prop := row.state ≠ .writing ∧ row.state ≠ .deleting

/-- A kept row stays kept, or the change puts it under deletion for a reason. -/
theorem kept_or_reclaimed (hp : Permitted s c l action) (hrow : row ∈ l.segments.rows)
    (hkept : row.Kept) :
    (∃ later ∈ (l.apply action).segments.rows, row.Continues later ∧ later.Kept) ∨
      (action.Moves row.id .deleting ∧ Reclaims c l row) := by
  have hdrop : action ≠ .dropSegment row.id := by
    rintro rfl
    exact hkept.2 (hp.2 row hrow rfl)
  obtain ⟨later, hlater, hcont, hsame | hmoves⟩ := Ledger.segment_apply hrow hdrop
  · exact .inl ⟨later, hlater, hcont, hsame ▸ hkept.1, hsame ▸ hkept.2⟩
  · rw [hcont.id] at hmoves
    rcases hp.moves hmoves with hst | ⟨hst, -, -, hreclaims⟩
    · exact .inl ⟨later, hlater, hcont, hst⟩
    · exact .inr ⟨hst ▸ hmoves, hreclaims row hrow rfl hkept.2⟩

/-! ## One call -/

/-- A logged change put the segment under deletion, for a reason. -/
def ReclaimedBy (c : Ctx) (log : List Entry) (row : Segment) : Prop :=
  ∃ mark ∈ log, mark.action.Moves row.id .deleting ∧ Reclaims c mark.ledger row

theorem Reclaims.continues {later : Segment} (h : Reclaims c l later) (hcont : row.Continues later) :
    Reclaims c l row := by
  obtain ⟨htrusted, hsettled, hpre, hreleased, hproposed⟩ := h
  rw [hcont.stop] at hpre hreleased hproposed
  exact ⟨htrusted, hsettled, hpre, hreleased, hproposed⟩

variable {log : List Entry}

theorem ReclaimedBy.cons (entry : Entry) (h : ReclaimedBy c log row) : ReclaimedBy c (entry :: log) row := by
  obtain ⟨mark, hmark, hmoves, hreclaims⟩ := h
  exact ⟨mark, List.mem_cons_of_mem _ hmark, hmoves, hreclaims⟩

/-- A row that was kept at some point of a call is still kept, or the call reclaimed it. -/
theorem Trace.kept_or_reclaimed (ht : Trace s c l₀ log l) {seen : Ledger} (hseen : seen ∈ l₀ :: log.map Entry.ledger)
    (hrow : row ∈ seen.segments.rows) (hkept : row.Kept) :
    (∃ later ∈ l.segments.rows, row.Continues later ∧ later.Kept) ∨ ReclaimedBy c log row := by
  induction ht with
  | nil =>
    obtain rfl : seen = l₀ := by simpa using hseen
    exact .inl ⟨row, hrow, .refl row, hkept⟩
  | @cons log l action media _ hp ih =>
    -- before the change the row was kept, or it had been reclaimed already
    have hbefore : (∃ later ∈ l.segments.rows, row.Continues later ∧ later.Kept) ∨
        ReclaimedBy c log row := by
      rcases List.mem_cons.mp hseen with rfl | hmem
      · exact ih List.mem_cons_self
      · rcases List.mem_cons.mp hmem with rfl | hmem
        · exact .inl ⟨row, hrow, .refl row, hkept⟩
        · exact ih (List.mem_cons_of_mem _ hmem)
    rcases hbefore with ⟨middle, hmiddle, hcont, hmid⟩ | hreclaimed
    · rcases Ring.kept_or_reclaimed hp hmiddle hmid with ⟨later, hlater, hcont', hk⟩ | ⟨hmoves, hrec⟩
      · exact .inl ⟨later, hlater, hcont.trans hcont', hk⟩
      · rw [hcont.id] at hmoves
        exact .inr ⟨_, List.mem_cons_self, hmoves, hrec.continues hcont⟩
    · exact .inr (hreclaimed.cons _)

/-- The changes before a change of a trace are a trace, and the change is permitted. -/
theorem Trace.split {later earlier : List Entry} {entry : Entry}
    (ht : Trace s c l₀ (later ++ entry :: earlier) l) :
    Trace s c l₀ earlier entry.ledger ∧ Permitted s c entry.ledger entry.action := by
  induction later generalizing l with
  | nil =>
    cases ht with
    | cons media hearlier hp => exact ⟨hearlier, hp⟩
  | cons first rest ih =>
    cases ht with
    | cons media hearlier hp => exact ih hearlier

/-! ## Runs -/

variable {media : Media} {h : History} {sys : Sys} {e : Event Sys (Call × Env) Output}

/-- The log of every call of a run is a trace on the ledger the call was made on. -/
theorem trace_of_reaches (hr : Reaches (step s) { media := media } h sys) (he : e ∈ h) :
    ∃ l, Trace s (contextOf e) e.before.ledger e.output.log l := by
  obtain ⟨earlier, hbefore, heq⟩ := hr.event_of_mem he
  have hvalid := (chain_of_reaches hbefore).2
  have htrace := (step_spec (s := s) e.input e.before hvalid).trace
  have hlog : e.output.log = (step s e.input e.before).1.log := congrArg (fun e => e.output.log) heq
  rw [← hlog] at htrace
  exact ⟨_, htrace⟩

/-- Whenever a call removes the file of a segment that was stored at some point of the call, the call
had marked its row, and at that change: the caller trusted a time that is not behind the recorded
one, no loss was pending, the segment ended before the pre-loss window and before the selected
duration of the configuration in force, and of the proposed one. -/
theorem reclamation_conditions (hr : Reaches (step s) { media := media } h sys) (he : e ∈ h)
    {later earlier : List Entry} {entry : Entry}
    (hlog : e.output.log = later ++ entry :: earlier) (haction : entry.action = .deleteFile row.id)
    {seen : Ledger} (hseen : seen ∈ e.before.ledger :: earlier.map Entry.ledger)
    (hrow : row ∈ seen.segments.rows) (hstored : row.state = .stored) :
    e.input.1.clockTrusted = true ∧ e.before.ledger.latestClock.getD 0 ≤ e.input.1.now ∧
      row.stop ≤ e.input.1.now - pre ∧
      (∃ mark ∈ earlier, mark.action.Moves row.id .deleting ∧ mark.ledger.pendingLoss = false ∧
        ∀ k ∈ mark.ledger.configuration, k.config.mode = .duration →
          row.stop ≤ e.input.1.now - (k.config.value * second : Nat)) ∧
      ∀ config profiles now trusted, e.input.1 = .configure true config profiles now trusted →
        config.mode = .duration → row.stop ≤ e.input.1.now - (config.value * second : Nat) := by
  obtain ⟨l, htrace⟩ := trace_of_reaches hr he
  rw [hlog] at htrace
  obtain ⟨hearlier, hp⟩ := htrace.split
  have hkept : row.Kept := ⟨hstored ▸ by decide, hstored ▸ by decide⟩
  rcases hearlier.kept_or_reclaimed hseen hrow hkept with ⟨now, hnow, hcont, hk⟩ | hreclaimed
  · -- the file of a kept row is not removed
    rw [haction] at hp
    rcases hp with ⟨-, hdeleting⟩ | hwriting
    · exact absurd (hdeleting now hnow hcont.id) hk.2
    · exact absurd (hwriting now hnow hcont.id) hk.1
  · obtain ⟨mark, hmark, hmoves, hreclaims⟩ := hreclaimed
    have heffective : e.input.1.clockTrusted = true ∧
        decide (e.before.ledger.latestClock.getD 0 ≤ e.input.1.now) = true :=
      Bool.and_eq_true_iff.mp hreclaims.trusted
    refine ⟨heffective.1, of_decide_eq_true heffective.2, hreclaims.beforePre,
      ⟨mark, hmark, hmoves, hreclaims.settled, fun k hk => hreclaims.released k hk⟩, ?_⟩
    intro config profiles now trusted hcall
    refine hreclaims.proposed config ?_
    unfold contextOf
    rw [hcall]
    rfl

/-! ### A shorter duration -/

/-- Two segments are appended to a ring of 1200 seconds, which is then configured to 600 seconds. -/
def shrinkingCalls : List (Call × Env) :=
  [(.openRing, {}), (.configure true (keeping 1200 (by decide)) [camera] (seconds 600) true, {}),
    segmentAt 600 1, segmentAt 1200 2,
    (.configure true (keeping 600 tenMinutes) [camera] (seconds 1200) true, {})]

/-- The last call of that run removes a stored segment which the configuration in force before the
call would have kept. -/
theorem shrinking_removes_kept : ∃ e ∈ (runFrom roomy shrinkingCalls).1,
    ∃ entry ∈ e.output.log, ∃ row ∈ e.before.ledger.segments.rows, row.state = .stored ∧
      entry.action.removes row.id = true ∧
      (e.before.ledger.configuration.any fun k => k.config.mode = .duration ∧
        e.input.1.now - (k.config.value * second : Nat) < row.stop) = true := by
  decide +kernel

/-- The conditions hold for what that run removes. -/
theorem reclamation_conditions_shrinking : ∃ e ∈ (runFrom roomy shrinkingCalls).1,
    ∃ entry ∈ e.output.log, ∃ row ∈ e.before.ledger.segments.rows, row.state = .stored ∧
      entry.action = .deleteFile row.id ∧ e.input.1.clockTrusted = true ∧
      row.stop ≤ e.input.1.now - pre := by
  have hrun : ∃ e ∈ (runFrom roomy shrinkingCalls).1, ∃ entry ∈ e.output.log,
      ∃ row ∈ e.before.ledger.segments.rows, row.state = .stored ∧
        entry.action.removes row.id = true := by
    decide +kernel
  obtain ⟨e, he, entry, hentry, row, hrow, hstored, hremoves⟩ := hrun
  have haction := Action.removes_iff.mp hremoves
  obtain ⟨later, earlier, hlog⟩ := List.append_of_mem hentry
  have hreaches := reaches_runFrom roomy shrinkingCalls
  obtain ⟨htrusted, -, hpre, -⟩ := reclamation_conditions hreaches he hlog haction
    List.mem_cons_self hrow hstored
  exact ⟨e, he, entry, hentry, row, hrow, hstored, haction, htrusted, hpre⟩

end Sentinel.Ring
