import Sentinel.Ring.Evidence
import Sentinel.Ring.Proofs.RunProofs

/-!
# A refused reconfiguration

`configure` removes media before it commits and can still fail afterwards. Up to the commit the configuration in force stays,
and only media that it gives up by itself is removed.
-/

namespace Sentinel.Ring

open Program

variable {s : Settings} {w₀ : World} {now : Int} {trusted : Bool}

/-! ## What reads and turns keep -/

variable {action : Action} {segment : UUID} {k : Configuration} {rows : List Segment} {l : Ledger} {config : RingConfig}
  {profiles : List SegmentProfile} {claimed owner : Bool}

section Reads

variable {I : World → Prop} (hI : ∀ failure, Keeps I (turn failure))
include hI

theorem keeps_segmentAllocations : Keeps I segmentAllocations := .seq (hI _) fun _ => .seq .reads fun _ => .ret

theorem keeps_check {additional : Nat} {reserve : Bool} : Keeps I (check s additional reserve) :=
  .seq (hI _) fun _ => .seq .reads fun _ => .seq .requires fun _ => .ret

theorem keeps_selectedTargetFits (config : RingConfig) (profiles : Profiles) :
    Keeps I (selectedTargetFits s config profiles) :=
  .seq .lifts fun _ => .seq (keeps_segmentAllocations hI) fun _ => .seq .reads fun _ => .seq (keeps_check hI) fun _ =>
    .requires

theorem keeps_durationTransitionFits (config : RingConfig) (profiles : Profiles) :
    Keeps I (durationTransitionFits s config profiles now trusted) := by
  unfold durationTransitionFits
  cases config.mode with
  | capacity => exact .ret
  | duration =>
    exact .seq (keeps_segmentAllocations hI) fun _ => .seq .reads fun _ => .seq .lifts fun _ =>
      .seq (keeps_check hI) fun _ => .requires

theorem keeps_capacityTransitionFits (config : RingConfig) (profiles : Profiles) :
    Keeps I (capacityTransitionFits s config profiles now trusted) := by
  unfold capacityTransitionFits
  cases config.mode with
  | duration => exact .ret
  | capacity => exact .seq (keeps_segmentAllocations hI) fun _ => .seq .reads fun _ => .seq .lifts fun _ => .requires

theorem keeps_transact (hact : Keeps I (act action)) : Keeps I (transact action) :=
  .seq (hI _) fun _ => hact

theorem keeps_removeSegment (hmark : Keeps I (act (.markDeleting segment))) (hdelete : Keeps I (act (.deleteFile segment)))
    (hdrop : Keeps I (act (.dropSegment segment))) : Keeps I (removeSegment segment) := by
  have hfile : Keeps I (deleteSegment segment) :=
    .seq (hI _) fun _ => .seq .reads fun _ => .branch (.seq hdelete fun _ => hI _) .ret
  exact .seq .reads fun _ => .seq .requires fun _ => .seq (keeps_transact hI hmark) fun _ => .seq hfile fun _ =>
    keeps_transact hI hdrop

theorem keeps_reconcilePresence (hmark : ∀ changes, Keeps I (act (.setStates changes))) : Keeps I reconcilePresence :=
  .seq (.seq (hI _) fun _ => .seq .reads fun _ => .ret) fun _ => .seq (keeps_segmentAllocations hI) fun _ =>
    .seq .reads fun _ => .branch .ret (keeps_transact hI (hmark _))

theorem keeps_budget (hmark : ∀ changes, Keeps I (act (.setStates changes))) (profiles : Profiles) :
    Keeps I (budget s profiles now trusted) :=
  .seq (keeps_reconcilePresence hI hmark) fun _ => .seq (keeps_check hI) fun _ =>
    .seq (keeps_segmentAllocations hI) fun _ => .seq .reads fun _ => .seq .reads fun _ => .seq .lifts fun _ =>
    .seq .lifts fun _ => .ret

theorem keeps_nextWriteRefused {b : Budget} {atBound : Bool} : Keeps I (nextWriteRefused s k now b trusted atBound) :=
  .seq (keeps_segmentAllocations hI) fun _ => .seq .reads fun _ => .ret

theorem keeps_statusState {b : Budget} {pressure : Bool} {ordinary orphan : Nat} :
    Keeps I (statusState s k now trusted b pressure ordinary orphan) :=
  .branch .ret (.seq (keeps_nextWriteRefused hI) fun _ => .branch .ret (.branch .ret (.branch .ret (.branch .ret
    (.seq (keeps_nextWriteRefused hI) fun _ => .branch .ret (.seq .reads fun _ => .seq .reads fun _ => .ret))))))

theorem keeps_statusAt (hmark : ∀ changes, Keeps I (act (.setStates changes)))
    (hstatus : ∀ state reason, Keeps I (setStatus state reason)) : Keeps I (statusAt s now trusted) := by
  refine .seq .reads fun m => ?_
  cases m.configuration with
  | none => exact .ret
  | some k =>
    have hcapacity : Keeps I (statusCapacity s k now) := by
      refine .seq .reads fun l => ?_
      split
      · exact .ret
      · exact .ret
      · exact .fails
    exact .seq (.seq (hI _) fun _ => .seq .reads fun _ => .seq (keeps_budget hI hmark _) fun _ =>
      .seq hcapacity fun _ => .seq (keeps_segmentAllocations hI) fun _ => .seq .reads fun _ =>
      .seq (keeps_statusState hI) fun _ => .seq (hstatus _ _) fun _ => .seq .lifts fun _ => .seq .lifts fun _ =>
      .seq .lifts fun _ => .seq .lifts fun _ => .ret) fun _ => .ret

theorem keeps_trim (hact : ∀ action, Keeps I (act action)) : Keeps I (trim now trusted) := by
  refine .seq .reads fun m => ?_
  split
  next k _ =>
    refine .seq (keeps_segmentAllocations hI) fun allocations => .seq .reads fun l => ?_
    generalize ((l.ordinaryBytes allocations : Nat) : Int) = ordinary
    induction l.selectedReclaimable now k.config generalizing ordinary with
    | nil => exact .ret
    | cons row rest ih =>
      exact .branch .ret (.seq (keeps_removeSegment hI (hact _) (hact _) (hact _)) fun _ => ih _)
  next => exact .ret

end Reads

/-! ## After the commit -/

/-- The call has stored a configuration. -/
def Committed (w : World) : Prop := ∃ entry ∈ w.log, ∃ k, entry.action = .storeConfiguration k

theorem keeps_turn {I : World → Prop} (hI : ∀ {w : World} {turns : List Turn} {media : Media}, I w →
    I { w with turns := turns, media := media }) (failure : Fault → Failure) : Keeps I (turn failure) := by
  intro w hw
  unfold turn
  cases hturns : w.turns with
  | nil => exact hw
  | cons t rest =>
    dsimp only
    cases t.fault with
    | none | some fault => exact hI hw

theorem committed_turn : ∀ failure, Keeps Committed (turn failure) := keeps_turn fun hw => hw

theorem committed_act (action : Action) : Keeps Committed (act action) := by
  rintro w ⟨entry, he, k, hk⟩
  exact ⟨entry, List.mem_cons_of_mem _ he, k, hk⟩

/-! ## Before anything is removed -/

/-- The media after the first turns of the environment. -/
def mediaAfter (w : World) (turns : Nat) : Media := (w.turns.take turns).foldl (fun media t => t.interfere media) w.media

/-- So far the call made only turns, reads and changes of state: `l` is the ledger. -/
structure Unremoved (w₀ : World) (l : Ledger) (w : World) : Prop where
  ledger : w.ledger = l
  memory : w.memory = w₀.memory
  log : ∀ entry ∈ w.log, ∃ changes, entry.action = .setStates changes
  media : ∃ turns, w.turns = w₀.turns.drop turns ∧ w.media = mediaAfter w₀ turns

theorem unremoved_turn (w₀ : World) (l : Ledger) (failure : Fault → Failure) : Keeps (Unremoved w₀ l) (turn failure) := by
  intro w hw
  obtain ⟨hl, hm, hlog, turns, hturns, hmedia⟩ := hw
  unfold turn
  cases hw : w.turns with
  | nil => exact ⟨hl, hm, hlog, turns, hturns, hmedia⟩
  | cons t rest =>
    rw [hw] at hturns
    have hnext : Unremoved w₀ l { w with turns := rest, media := t.interfere w.media } := by
      refine ⟨hl, hm, hlog, turns + 1, ?_, ?_⟩
      · rw [← List.tail_drop, ← hturns]
        rfl
      · have hget : w₀.turns[turns]? = some t := by rw [← List.head?_drop, ← hturns]; rfl
        simp only [mediaAfter, List.take_add_one, hget, List.foldl_append, hmedia]
        rfl
    dsimp only
    cases t.fault with
    | none | some fault => exact hnext

theorem unremoved_segmentAllocations (l : Ledger) : Triple (Unremoved w₀ l) segmentAllocations
    (fun allocations w => Unremoved w₀ l w ∧ ∃ turns, allocations = (mediaAfter w₀ turns).files.map File.allocated)
    fun _ => Unremoved w₀ l :=
  .bind (unremoved_turn w₀ l _) fun _ => .read_bind fun media => .pure fun w hw => by
    obtain ⟨turns, -, hmedia⟩ := hw.1.media
    exact ⟨hw.1, turns, by rw [← hw.2, ← hmedia]⟩

/-- The ledger once the presence of its media is reconciled. -/
def Reconciles (l₀ l : Ledger) : Prop := l = l₀ ∨ ∃ changes, l = l₀.apply (.setStates changes)

/-- The configuration `k` gives the segment up by itself: it selects it for removal, and in the order of the FIFO it is
beyond the horizon of a capacity ring, or the ordinary bytes not yet removed still exceed the capacity. -/
def GivesUp (w₀ : World) (k : Configuration) (now : Int) (l : Ledger) (segment : UUID) : Prop :=
  ∃ earlier row later, l.selectedReclaimable now k.config = earlier ++ row :: later ∧ row.id = segment ∧
    (k.config.mode = .capacity → row.stop ≤ now - horizonUs k.config k.profiles ∨
      ∃ turns, (k.config.value : Int) <
        l.ordinaryBytes ((mediaAfter w₀ turns).files.map File.allocated) -
          allocatedBytes ((mediaAfter w₀ turns).files.map File.allocated) earlier)

theorem fifoEligible_spec {allocations : Allocations} {cutoff excess : Int} {row : Segment}
    (h : row ∈ fifoEligible allocations cutoff excess rows) : ∃ earlier later, rows = earlier ++ row :: later ∧
      (row.stop ≤ cutoff ∨ 0 < excess - allocatedBytes allocations earlier) := by
  induction rows generalizing excess with
  | nil => cases h
  | cons first rest ih =>
    unfold fifoEligible at h
    split_ifs at h with hstop
    · cases h
    · rcases List.mem_cons.mp h with rfl | h
      · refine ⟨[], rest, rfl, ?_⟩
        simp only [allocatedBytes, List.map_nil, List.sum_nil]
        omega
      · obtain ⟨earlier, later, rfl, hor⟩ := ih h
        refine ⟨first :: earlier, later, rfl, hor.imp_right fun hlt => ?_⟩
        simp only [allocatedBytes, List.map_cons, List.sum_cons] at hlt ⊢
        omega

theorem currentReclaimable_spec (k : Configuration) (l : Ledger) :
    Triple (Unremoved w₀ l) (currentReclaimable k now)
      (fun rows w => Unremoved w₀ l w ∧ ∀ row ∈ rows, GivesUp w₀ k now l row.id) fun _ => Unremoved w₀ l := by
  unfold currentReclaimable
  cases hmode : k.config.mode with
  | duration =>
    refine .read_bind fun l' => .pure fun w hw => ⟨hw.1, fun row hrow => ?_⟩
    obtain rfl : l = l' := hw.1.ledger.symm.trans hw.2
    obtain ⟨earlier, later, hsplit⟩ := List.append_of_mem hrow
    exact ⟨earlier, row, later, hsplit, rfl, fun h => nomatch hmode.symm.trans h⟩
  | capacity =>
    refine .bind (unremoved_segmentAllocations l) fun allocations => .read_bind fun l' => .pure fun w hw => ?_
    obtain ⟨⟨hun, turns, rfl⟩, hl'⟩ := hw
    obtain rfl : l = l' := hun.ledger.symm.trans hl'
    refine ⟨hun, fun row hrow => ?_⟩
    obtain ⟨earlier, later, hsplit, hor⟩ := fifoEligible_spec hrow
    exact ⟨earlier, row, later, hsplit, rfl, fun _ => hor.imp_right fun h => ⟨turns, by omega⟩⟩

theorem configurationReclaimable_spec {proposed : RingConfig} (hnone : w₀.memory.configuration = none → l.segments.rows = []) :
    Triple (Unremoved w₀ l) (configurationReclaimable now proposed)
      (fun rows w => Unremoved w₀ l w ∧ ∀ row ∈ rows, ∃ k ∈ w₀.memory.configuration, GivesUp w₀ k now l row.id)
      fun _ => Unremoved w₀ l := by
  refine .read_bind fun l' => .read_bind fun m => ?_
  refine .of_fact (φ := l' = l ∧ m = w₀.memory) (fun w hw => ⟨hw.1.2.symm.trans hw.1.1.ledger,
    hw.2.symm.trans hw.1.1.memory⟩) ?_
  rintro ⟨rfl, rfl⟩
  cases hm : w₀.memory.configuration with
  | none =>
    refine .pure fun w hw => ⟨hw.1.1, fun row hrow => ?_⟩
    have hmem := (Ledger.mem_reclaimable.mp (Ledger.mem_selectedReclaimable.mp hrow).1).2.1
    rw [hnone hm] at hmem
    exact nomatch hmem
  | some k =>
    refine .bind ((currentReclaimable_spec k l').strengthen fun w hw => hw.1.1) fun current => .pure fun w hw => ?_
    refine ⟨hw.1, fun row hrow => ⟨k, rfl, ?_⟩⟩
    obtain ⟨allowed, hallowed, hid⟩ := List.any_eq_true.mp (List.mem_filter.mp hrow).2
    have hgives := hw.2 allowed hallowed
    rwa [show allowed.id = row.id by simpa using hid] at hgives

/-! ## Until the commit -/

/-- The configuration in force gives the segment up. -/
def GivenUp (w₀ : World) (now : Int) (segment : UUID) : Prop :=
  ∃ k ∈ w₀.memory.configuration, ∃ l, Reconciles w₀.ledger l ∧ GivesUp w₀ k now l segment

/-- The configuration in force is the same, and every file the call removed belongs to a segment it gives up. -/
structure Refused (w₀ : World) (now : Int) (w : World) : Prop where
  configuration : w.ledger.configuration = w₀.ledger.configuration
  memory : w.memory.configuration = w₀.memory.configuration
  removed : ∀ entry ∈ w.log, ∀ segment, entry.action = .deleteFile segment → GivenUp w₀ now segment

theorem Unremoved.refused {w : World} (h : Unremoved w₀ l w) (hl : Reconciles w₀.ledger l) : Refused w₀ now w := by
  refine ⟨?_, congrArg Memory.configuration h.memory, fun entry he segment hs => ?_⟩
  · rw [h.ledger]
    rcases hl with rfl | ⟨changes, rfl⟩ <;> rfl
  · obtain ⟨changes, hc⟩ := h.log entry he
    exact nomatch hc.symm.trans hs

theorem refused_turn (w₀ : World) (now : Int) : ∀ failure, Keeps (Refused w₀ now) (turn failure) :=
  keeps_turn fun hw => ⟨hw.1, hw.2, hw.3⟩

theorem refused_act (hconf : ∀ l : Ledger, (l.apply action).configuration = l.configuration)
    (hfile : ∀ segment, action = .deleteFile segment → GivenUp w₀ now segment) : Keeps (Refused w₀ now) (act action) := by
  intro w hw
  refine ⟨(hconf w.ledger).trans hw.configuration, hw.memory, fun entry he segment hs => ?_⟩
  rcases List.mem_cons.mp he with rfl | he
  · exact hfile segment hs
  · exact hw.removed entry he segment hs

theorem refused_reclaimRows {needed : Nat} (hrows : ∀ row ∈ rows, GivenUp w₀ now row.id) :
    Keeps (Refused w₀ now) (reclaimRows s needed rows) := by
  induction rows with
  | nil => exact .ret
  | cons row rest ih =>
    have hremove : Keeps (Refused w₀ now) (removeSegment row.id) :=
      keeps_removeSegment (refused_turn w₀ now) (refused_act (fun _ => rfl) nofun)
        (refused_act (fun _ => rfl) fun segment hs => by
          obtain rfl : row.id = segment := Action.deleteFile.inj hs
          exact hrows row List.mem_cons_self)
        (refused_act (fun _ => rfl) nofun)
    exact .seq (keeps_check (refused_turn w₀ now)) fun _ => .branch .ret (.seq hremove fun _ =>
      ih fun row hrow => hrows row (List.mem_cons_of_mem _ hrow))

theorem quiet {α : Type} {p : RingM α} (hl : Reconciles w₀.ledger l) (hp : Keeps (Unremoved w₀ l) p) :
    Triple (Unremoved w₀ l) p (fun _ => Unremoved w₀ l) fun _ => Refused w₀ now :=
  hp.weaken (fun _ _ h => h) fun _ _ h => h.refused hl

theorem unremoved_setStates (changes : List (UUID × SegmentState × Nat)) {E : Failure → World → Prop} :
    Triple (Unremoved w₀ w₀.ledger) (act (.setStates changes))
      (fun _ => Unremoved w₀ (w₀.ledger.apply (.setStates changes))) E := by
  refine .modify fun w hw => ⟨by rw [← hw.ledger], hw.memory, fun entry he => ?_, hw.media⟩
  rcases List.mem_cons.mp he with rfl | he
  · exact ⟨changes, rfl⟩
  · exact hw.log entry he

theorem reconcilePresence_spec : Triple (Unremoved w₀ w₀.ledger) reconcilePresence
    (fun _ w => ∃ l, Reconciles w₀.ledger l ∧ Unremoved w₀ l w) fun _ => Refused w₀ now := by
  have hI := unremoved_turn w₀ w₀.ledger
  have hlist : Keeps (Unremoved w₀ w₀.ledger) listSegments := .seq (hI _) fun _ => .seq .reads fun _ => .ret
  refine .bind (quiet (.inl rfl) hlist) fun _ => .bind (quiet (.inl rfl) (keeps_segmentAllocations hI)) fun _ =>
    .bind (quiet (.inl rfl) .reads) fun l' => .ite (fun _ => ?_) fun _ => ?_
  · exact .pure fun w hw => ⟨w₀.ledger, .inl rfl, hw⟩
  · exact .bind (quiet (.inl rfl) (hI _)) fun _ => (unremoved_setStates _).weaken
      (fun _ w hw => ⟨_, .inr ⟨_, rfl⟩, hw⟩) fun _ _ h => h

theorem unremoved_keeps {α : Type} {p : RingM α} (hp : Keeps (Unremoved w₀ w₀.ledger) p) :
    Triple (Unremoved w₀ w₀.ledger) p (fun _ => Unremoved w₀ w₀.ledger) fun _ w => Refused w₀ now w ∨ Committed w :=
  (quiet (.inl rfl) hp).weaken (fun _ _ h => h) fun _ _ h => .inl h

section Unconfigured

variable (hnone : w₀.memory.configuration = none → w₀.ledger.segments.rows = [])
include hnone

theorem admitConfiguration_spec {mapping : Profiles} :
    Triple (Unremoved w₀ w₀.ledger) (admitConfiguration s config mapping now trusted)
      (fun admitted w => Refused w₀ now w ∧ ∀ row ∈ admitted.2, GivenUp w₀ now row.id)
      fun _ => Refused w₀ now := by
  have hquiet {α : Type} {p : RingM α} (hp : Keeps (Unremoved w₀ w₀.ledger) p) :
      Triple (Unremoved w₀ w₀.ledger) p (fun _ => Unremoved w₀ w₀.ledger) fun _ => Refused w₀ now :=
    quiet (.inl rfl) hp
  refine .bind (hquiet .lifts) fun _ => .bind (hquiet .requires) fun _ => .bind (hquiet .requires) fun _ =>
    .bind (hquiet .lifts) fun _ => ?_
  -- the presence of media is reconciled once, at the start of the budget
  have hbudget : Triple (Unremoved w₀ w₀.ledger) (budget s mapping now trusted)
      (fun _ w => ∃ l, Reconciles w₀.ledger l ∧ Unremoved w₀ l w) fun _ => Refused w₀ now := by
    refine .bind reconcilePresence_spec fun _ => .of_exists fun l => .of_fact (fun _ hw => hw.1) fun hl => ?_
    have hI := unremoved_turn w₀ l
    refine .bind ((quiet hl (keeps_check hI)).strengthen fun _ hw => hw.2) fun _ => ?_
    exact .bind (quiet hl (keeps_segmentAllocations hI)) fun _ => .bind (quiet hl .reads) fun _ =>
      .bind (quiet hl .reads) fun _ => .bind (quiet hl .lifts) fun _ => .bind (quiet hl .lifts) fun _ =>
      .pure fun _ hw => ⟨l, hl, hw⟩
  refine .bind hbudget fun b => .of_exists fun l => .of_fact (fun _ hw => hw.1) fun hl => ?_
  have hI := unremoved_turn w₀ l
  have hnone' : w₀.memory.configuration = none → l.segments.rows = [] := fun hm => by
    rcases hl with rfl | ⟨changes, rfl⟩
    · exact hnone hm
    · exact List.map_eq_nil_iff.mpr (hnone hm)
  have hselect : Triple (Unremoved w₀ l) (if trusted then configurationReclaimable now config else pure [])
      (fun rows w => Unremoved w₀ l w ∧ ∀ row ∈ rows, ∃ k ∈ w₀.memory.configuration, GivesUp w₀ k now l row.id)
      fun _ => Refused w₀ now :=
    .ite (fun _ => (configurationReclaimable_spec hnone').weaken (fun _ _ h => h) fun _ _ h => h.refused hl)
      fun _ => .pure fun w hw => ⟨hw, nofun⟩
  refine .bind (hselect.strengthen fun _ hw => hw.2) fun reclaimable => .of_fact (fun _ hw => hw.2) fun hrows => ?_
  refine .bind ((quiet hl (keeps_segmentAllocations hI)).strengthen fun _ hw => hw.1) fun _ => ?_
  refine .bind (quiet hl .requires) fun _ => .bind (quiet hl (keeps_selectedTargetFits hI _ _)) fun _ =>
    .bind (quiet hl (keeps_capacityTransitionFits hI _ _)) fun _ =>
    .bind (quiet hl (keeps_durationTransitionFits hI _ _)) fun _ => .bind (quiet hl (.seq .reads fun _ => .lifts)) fun _ => ?_
  refine .pure fun w hw => ⟨hw.refused hl, fun row hrow => ?_⟩
  obtain ⟨k, hk, hgives⟩ := hrows row hrow
  exact ⟨k, hk, l, hl, hgives⟩

/-- Up to its commit `configure` leaves the configuration in force; afterwards its log says so. -/
theorem configureRing_spec :
    Triple (Unremoved w₀ w₀.ledger) (configureRing s config profiles now claimed) (fun _ _ => True)
      fun _ w => Refused w₀ now w ∨ Committed w := by
  have hrefused {α : Type} {p : RingM α} (hp : Keeps (Refused w₀ now) p) :
      Triple (Refused w₀ now) p (fun _ => Refused w₀ now) fun _ w => Refused w₀ now w ∨ Committed w :=
    hp.weaken (fun _ _ h => h) fun _ _ h => .inl h
  have hcommitted {α : Type} {p : RingM α} (hp : Keeps Committed p) :
      Triple Committed p (fun _ => Committed) fun _ w => Refused w₀ now w ∨ Committed w :=
    hp.weaken (fun _ _ h => h) fun _ _ h => .inr h
  have hI := refused_turn w₀ now
  refine .bind (unremoved_keeps .reads) fun l => .bind (unremoved_keeps .requires) fun _ =>
    .bind (unremoved_keeps .requires) fun _ => ?_
  refine .bind ((admitConfiguration_spec hnone).weaken (fun _ _ h => h) fun _ _ h => .inl h) fun (required, reclaimable) =>
    .of_fact (fun _ hw => hw.2) fun hrows => ?_
  refine .bind ((hrefused (refused_reclaimRows hrows)).strengthen fun _ hw => hw.1) fun _ =>
    .bind (hrefused (keeps_check hI)) fun _ => .bind (hrefused (keeps_selectedTargetFits hI _ _)) fun _ =>
    .bind (hrefused (keeps_durationTransitionFits hI _ _)) fun _ => .bind (hrefused .reads) fun _ =>
    .bind (hrefused .reads) fun m => ?_
  refine .bind (Q := fun _ => Committed) ?_ fun _ => .bind (hcommitted (keeps_trim committed_turn committed_act)) fun _ =>
    (hcommitted (keeps_statusAt committed_turn (fun _ => committed_act _) fun _ _ => fun _ hw => hw)).weaken
      (fun _ _ _ => trivial) fun _ _ h => h
  refine .bind (hrefused (hI _)) fun _ => .bind (Q := fun _ => Committed) (.modify fun w _ => ?_) fun _ =>
    .modify fun _ hw => hw
  exact ⟨_, List.mem_cons_self, _, rfl⟩

/-- The whole method: a failure is reported to the caller after the state of the ring is set. -/
theorem configure_spec :
    Triple (Unremoved w₀ w₀.ledger) (configure s owner config profiles now claimed) (fun _ _ => True)
      fun _ w => Refused w₀ now w ∨ Committed w := by
  have hreport {state : RingState} {reason : StatusReason} {e : Failure} :
      Triple (fun w => Refused w₀ now w ∨ Committed w) (do setStatus state reason; fail e : RingM StatusReport)
        (fun _ _ => True) fun _ w => Refused w₀ now w ∨ Committed w :=
    .bind (Q := fun _ w => Refused w₀ now w ∨ Committed w)
      (.modify fun w hw => hw.imp_left fun h => ⟨h.configuration, h.memory, h.removed⟩) fun _ => .fail fun _ h => h
  refine .bind (unremoved_keeps .requires) fun _ => .bind (unremoved_keeps .requires) fun _ =>
    .bind (unremoved_keeps .requires) fun _ => .bind (unremoved_keeps .requires) fun _ =>
    .bind (unremoved_keeps .requires) fun _ => ?_
  refine .handle (.bind (unremoved_keeps (unremoved_turn w₀ w₀.ledger _)) fun _ => configureRing_spec hnone) fun e => ?_
  split
  · exact hreport
  · exact hreport
  · exact hreport
  · exact .fail fun _ h => h

theorem refused_of_run {e : Failure} {w : World} (hlog : w₀.log = [])
    (hrun : program s (.configure owner config profiles now claimed) w₀ = (.error e, w)) :
    Refused w₀ now w ∨ Committed w := by
  have hspec : Triple (Unremoved w₀ w₀.ledger) (program s (.configure owner config profiles now claimed)) (fun _ _ => True)
      fun _ w => Refused w₀ now w ∨ Committed w :=
    Triple.bind (configure_spec hnone) fun _ => .pure fun _ _ => trivial
  have h := hspec w₀ ⟨rfl, rfl, fun _ he => absurd (hlog ▸ he) List.not_mem_nil, 0, rfl, rfl⟩
  rw [hrun] at h
  exact h

end Unconfigured

/-- What the configuration gives up is unprotected and outside of everything it keeps. -/
theorem GivesUp.spec {w₀ : World} (h : GivesUp w₀ k now l segment) (hl : Reconciles w₀.ledger l) :
    ∃ earlier row later, l.selectedReclaimable now k.config = earlier ++ row :: later ∧
      row.id = segment ∧ w₀.ledger.isProtected segment = false ∧ row.stop ≤ now - pre ∧
      (k.config.mode = .duration → row.stop ≤ now - (k.config.value * second : Nat)) ∧
      (k.config.mode = .capacity → row.stop ≤ now - horizonUs k.config k.profiles ∨
        ∃ turns, (k.config.value : Int) <
          l.ordinaryBytes ((mediaAfter w₀ turns).files.map File.allocated) -
            allocatedBytes ((mediaAfter w₀ turns).files.map File.allocated) earlier) := by
  obtain ⟨earlier, row, later, hsplit, rfl, hcapacity⟩ := h
  have hrow : row ∈ l.selectedReclaimable now k.config := hsplit ▸ List.mem_append_right _ List.mem_cons_self
  obtain ⟨hrec, hreleases⟩ := Ledger.mem_selectedReclaimable.mp hrow
  obtain ⟨-, -, hpre, -, hprotected⟩ := Ledger.mem_reclaimable.mp hrec
  refine ⟨earlier, row, later, hsplit, rfl, ?_, hpre, hreleases, hcapacity⟩
  rcases hl with rfl | ⟨changes, rfl⟩ <;> exact hprotected

theorem step_configure {sys : Sys} {m : Memory} (hm : sys.memory = some m) (owner claimed : Bool) (config : RingConfig)
    (profiles : List SegmentProfile) (now : Int) (env : Env) :
    step s (.configure owner config profiles now claimed, env) sys =
      conclude false (program s (.configure owner config profiles now claimed) (sys.world m env)) := by
  obtain ⟨ledger, media, memory⟩ := sys
  obtain rfl : memory = some m := hm
  rfl

/-- A refused reconfiguration leaves the active ring owned. Where `configure` raises and has not stored a configuration,
the stored one and the one in memory are the same as before, and every segment whose file it removed was unprotected and
already given up by that configuration: it ended before the pre-loss window, before the selected duration, and in a ring of
a capacity, in FIFO order, before its horizon or while the ordinary bytes left still exceeded the capacity. -/
theorem refused_configure_keeps_ring {media : Media} {h : History} {sys : Sys} {m : Memory}
    (hr : Reaches (step s) { media := media } h sys) (hm : sys.memory = some m) {owner claimed : Bool}
    {config : RingConfig} {profiles : List SegmentProfile} {env : Env} {e : Failure}
    (he : (step s (.configure owner config profiles now claimed, env) sys).1.result = .error e)
    (hcommit : ∀ entry ∈ (step s (.configure owner config profiles now claimed, env) sys).1.log, ∀ k,
      entry.action ≠ .storeConfiguration k) :
    let r := step s (.configure owner config profiles now claimed, env) sys
    r.2.ledger.configuration = sys.ledger.configuration ∧ (∀ m' ∈ r.2.memory, m'.configuration = m.configuration) ∧
    ∀ entry ∈ r.1.log, ∀ segment, entry.action = .deleteFile segment →
      ∃ k, m.configuration = some k ∧ ∃ l, Reconciles sys.ledger l ∧ ∃ earlier row later,
        l.selectedReclaimable now k.config = earlier ++ row :: later ∧ row.id = segment ∧
        sys.ledger.isProtected segment = false ∧ row.stop ≤ now - pre ∧
        (k.config.mode = .duration → row.stop ≤ now - (k.config.value * second : Nat)) ∧
        (k.config.mode = .capacity → row.stop ≤ now - horizonUs k.config k.profiles ∨
          ∃ turns, (k.config.value : Int) <
            l.ordinaryBytes ((mediaAfter (sys.world m env) turns).files.map File.allocated) -
              allocatedBytes ((mediaAfter (sys.world m env) turns).files.map File.allocated) earlier) := by
  intro r
  obtain ⟨hvalid, hagrees⟩ := (chain_of_reaches hr).2
  have hnone : (sys.world m env).memory.configuration = none → (sys.world m env).ledger.segments.rows = [] := fun hn =>
    (hvalid.configured ((hagrees m hm).symm.trans hn)).1
  have hstep := step_configure (s := s) hm owner claimed config profiles now env
  rcases hrun : program s (.configure owner config profiles now claimed) (sys.world m env) with ⟨result, w⟩
  rw [hrun] at hstep
  simp only [r]
  rw [hstep] at he hcommit ⊢
  obtain rfl : result = .error e := he
  obtain ⟨hledger, hmemory, hremoved⟩ := (refused_of_run hnone rfl hrun).resolve_right
    fun ⟨entry, hentry, k, hk⟩ => hcommit entry hentry k hk
  refine ⟨hledger, fun m' hm' => ?_, fun entry hentry segment hs => ?_⟩
  · simp only [conclude, Option.mem_def] at hm'
    split at hm'
    · cases hm'
    · exact Option.some.inj hm' ▸ hmemory
  · obtain ⟨k, hk, l, hl, hgives⟩ := hremoved entry hentry segment hs
    exact ⟨k, hk, l, hl, hgives.spec hl⟩

/-- A ring of ten minutes with a segment that it gives up by the time of the next call. -/
def expiredCalls : List (Call × Env) :=
  [(.openRing, {}), (.configure true (keeping 600 tenMinutes) [camera] (seconds 600) true, {}), segmentAt 1200 1]

/-- Another program fills the disk just before media is removed. -/
def crowded : Env :=
  ⟨List.replicate 10 ({ } : Turn) ++ [{ interfere := fun media => { media with available := 0 } }], []⟩

/-- A reconfiguration then removes the segment, is refused, and leaves the configuration. -/
theorem refused_configure_keeps_ring_crowded :
    let r := step roomy (.configure true (keeping 600 (by decide)) [camera] (seconds 3000) true, crowded)
      (runFrom roomy expiredCalls).2
    (r.1.log.any fun entry => entry.action.removes 1) = true ∧
      r.2.ledger.configuration = (runFrom roomy expiredCalls).2.ledger.configuration ∧
      (runFrom roomy expiredCalls).2.ledger.isProtected 1 = false := by
  intro r
  have hopen : (runFrom roomy expiredCalls).2.memory.isSome = true := by decide +kernel
  have hfails : r.1.failure = some (.ring .mediaStorageUnavailable) := by decide +kernel
  have hlog : (r.1.log.any fun entry => entry.action.removes 1) = true := by decide +kernel
  have hcommit : (r.1.log.all fun entry => match entry.action with
      | .storeConfiguration _ => false
      | _ => true) = true := by decide +kernel
  have hreaches := reaches_runFrom roomy expiredCalls
  simp only [r] at hfails hlog hcommit ⊢
  generalize (runFrom roomy expiredCalls).2 = sys at hreaches hopen hfails hlog hcommit ⊢
  obtain ⟨m, hm⟩ := Option.isSome_iff_exists.mp hopen
  have hresult (output : Output) (h : output.failure = some (.ring .mediaStorageUnavailable)) :
      output.result = .error (.ring .mediaStorageUnavailable) := by
    obtain ⟨_ | e, log⟩ := output
    · exact congrArg Except.error (Option.some.inj h)
    · exact nomatch h
  obtain ⟨hconf, -, hremoved⟩ := refused_configure_keeps_ring hreaches hm (hresult _ hfails)
    fun entry hentry k hk => by
      have h := List.all_eq_true.mp hcommit entry hentry
      rw [hk] at h
      exact nomatch h
  obtain ⟨entry, hentry, hs⟩ := List.any_eq_true.mp hlog
  obtain ⟨k, -, l, -, _, _, _, -, -, hprotected, -⟩ := hremoved entry hentry 1 (Action.removes_iff.mp hs)
  exact ⟨hlog, hconf, hprotected⟩

end Sentinel.Ring
