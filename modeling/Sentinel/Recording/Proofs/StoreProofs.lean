import Sentinel.Recording.Proofs.ControlProofs

/-!
# What the operations of the store keep

One rule for each operation, for every demand that its statements keep: under a reservation for those that
other operations call, and from an idle world for those a caller calls.
-/

namespace Sentinel.Recording

open Program

variable {u : Setup} {a b : Bool} {R S Q F : Demand} {A : Change → Prop} {w : World}
  {K : Policy → Option Space → Prop} {α : Type} {I : World → Prop} {id : UUID}

/-! ## Transactions -/

variable {body : StoreM α} {c : Change}

theorem transaction_held {Q : α → Demand} (hRS : ∀ {n t}, R n t → S n t) (hRF : ∀ {n t}, R n t → F n t)
    (hQF : ∀ {x n t}, Q x n t → F n t)
    (hbody : Triple (Held u K b R R) body (fun x => Held u K b (Q x) R) fun _ => Held u K b F R) :
    Triple (Held u K b R S) (transaction u body) (fun x => Held u K b (Q x) S)
      fun _ => Held u K b F S := by
  refine .read_bind fun busy => .bind (.require (R := fun _ => Held u K b R fun _ _ => False) ?_ ?_) fun _ =>
    controlReservation_active (fun w hw => hw.active) (attempt_spec hRS hRF hQF hbody)
  · rintro w ⟨hw, rfl⟩ hfree
    refine ⟨hw.held, hw.active, hw.policy, hw.calm.log, hw.calm.reclaiming, hw.calm.tables, fun t ht => ?_⟩
    rw [ht] at hfree
    cases hfree
  · exact fun w hw _ => hw.1.conseq hRF id

theorem transaction_idle (hRS : ∀ {n t}, R n t → S n t) (hbody : Keeps (Held u (fun _ _ => True) b R R) body) :
    Keeps (Idle u b R S) (transaction u body) := by
  refine .read_bind fun busy => .bind (.require (R := fun _ => Idle u b R fun _ _ => False) ?_ ?_) fun _ =>
    controlReservation_idle id False.elim (attempt_spec hRS id id hbody)
  · rintro w ⟨hw, rfl⟩ hfree
    refine ⟨hw.unreserved, hw.calm.log, hw.calm.reclaiming, hw.calm.tables, fun t ht => ?_⟩
    rw [ht] at hfree
    cases hfree
  · exact fun w hw _ => hw.1

theorem keeps_transaction (hRS : ∀ {n t}, R n t → S n t) (hbody : Keeps (Held u K b R R) body) :
    Keeps (Held u K b R S) (transaction u body) :=
  transaction_held hRS id id hbody

theorem controlOperation_held (hbody : Keeps (Held u K b R S) body) : Keeps (Held u K b R S) (controlOperation u body) :=
  .bind Reserved.steady.check fun _ => controlReservation_active (fun _ hw => hw.active) hbody

theorem controlOperation_idle (hbody : Keeps (Held u (fun _ _ => True) b R S) body) :
    Keeps (Idle u b R S) (controlOperation u body) :=
  .bind Idle.steady.check fun _ => controlReservation_idle id id hbody

/-! ## Kinds of statements -/

theorem Change.Evicts.edits (hc : c.Evicts) : c.Edits := by
  cases c <;> trivial

theorem Change.Evicts.removes (hc : c.Evicts) (id : UUID) : c.Removes id := by
  cases c <;> first | exact hc | exact hc.elim

theorem Change.Removes.edits (hc : c.Removes id) : c.Edits := by
  cases c <;> trivial

/-! ## Eviction -/

/-- No segment of the list is linked. -/
def Unlinks (ids : List UUID) : Demand := fun _ t => ∀ id ∈ ids, t.Unlinked id

theorem Tables.Unlinked.not_protects {t : Tables} (h : t.Unlinked id) : ¬ t.Protects id := by
  rintro ⟨l, hl, heq, -⟩
  exact h l hl heq

theorem deletesSegment_ok {t : Tables} (h : t.allows (.deleteSegment id) = true) :
    ∀ e ∈ (Change.deleteSegment id).entries t b, e.Ok u := by
  intro e he
  rw [List.mem_singleton.mp he]
  exact fun _ => Tables.Unlinked.not_protects (of_decide_eq_true h)

section

variable (h : Closed u b A R) (hRS : ∀ {n t}, R n t → S n t)

include h hRS

theorem removeSegment_held (hA : A (.deleteSegment id)) (ids : List UUID) :
    Keeps (Held u K b (fun n t => R n t ∧ Unlinks (id :: ids) n t) S) (removeSegment u id) := by
  refine .bind Reserved.steady.risk fun _ => .bind (.modify fun w hw => ?_) fun _ =>
    .bind Reserved.steady.risk fun _ => keeps_transaction (fun ht => hRS ht.1) (exec_spec ?_ ?_ ?_)
  · exact ⟨hw.held, hw.active, hw.policy, hw.calm.note (e := .removesFile id w.tables w.reclaiming)
      (fun _ => (hw.calm.tables.2 id List.mem_cons_self).not_protects) (fun _ => rfl) rfl rfl rfl rfl⟩
  · exact fun _ _ _ hmn ht => ⟨h.mono hmn ht.1, ht.2⟩
  · exact fun hallowed ht => ⟨h.change hA hallowed ht.1, ht.2⟩
  · exact fun hallowed _ => deletesSegment_ok hallowed

theorem trim_held (hA : ∀ {c : Change}, c.Evicts → A c) : Keeps (Held u K b R S) (trim u) := by
  have hexec : ∀ {c : Change}, c.Evicts → Keeps (Held u K b R R) (exec c) := fun hc => h.keeps_exec (hA hc)
  have hquery : ∀ {β : Type} (f : Tables → β), Keeps (Held u K b R R) (query f) := Reserved.steady.keeps_query
  refine controlOperation_held (.bind Reserved.steady.risk fun _ => .bind (keeps_transaction hRS ?_) fun _ =>
    .bind (Reserved.steady.query _) fun unused => ?_)
  · exact .bind (hquery _) fun _ => .bind (hexec trivial) fun _ => .bind (hquery _) fun _ =>
      .bind (Keeps.forEach (fun i => hexec (c := .unspool [i]) trivial) _) fun _ => .bind (hquery _) fun _ => hexec trivial
  · -- the segments to remove are not linked, and removing one links none of the others
    refine (Triple.forEach (I := fun ids => Held u K b (fun n t => R n t ∧ Unlinks ids n t) S)
      (E := fun _ => Held u K b R S) (fun segment ids => ?_) unused).conseq ?_ (fun _ w hw => hw.conseq And.left id)
      fun _ _ hw => hw
    · exact (removeSegment_held h hRS (hA trivial) ids).weaken
        (fun _ w hw => hw.conseq (fun ht => ⟨ht.1, fun i hi => ht.2 i (List.mem_cons_of_mem _ hi)⟩) id)
        fun _ w hw => hw.conseq And.left id
    · rintro w ⟨hw, rfl⟩
      refine ⟨hw.held, hw.active, hw.policy, hw.calm.log, hw.calm.reclaiming, ⟨hw.calm.tables, ?_⟩,
        hw.calm.saved⟩
      intro i hi
      obtain ⟨s, hs, rfl⟩ := List.mem_map.mp hi
      have := (List.mem_filter.mp hs).2
      simp only [Bool.and_eq_true, decide_eq_true_eq] at this
      exact this.2

/-! ## Deletion -/

omit hRS in
theorem prepareDelete_held (hA : ∀ {c : Change}, c.Removes id → A c) (ownerRequested : Bool) :
    Keeps (Held u K b R R) (prepareDelete u id ownerRequested) := by
  have hexec : ∀ {c : Change}, c.Removes id → Keeps (Held u K b R R) (exec c) := fun hc => h.keeps_exec (hA hc)
  have hquery : ∀ {β : Type} (f : Tables → β), Keeps (Held u K b R R) (query f) := Reserved.steady.keeps_query
  refine .bind Reserved.steady.check fun _ => .bind (.read fun _ hw => hw) fun _ => .bind keeps_require fun _ =>
    controlReservation_active (fun _ hw => hw.active) ?_
  exact .bind (.bind Reserved.steady.risk fun _ => hquery _) fun _ => .bind (Reserved.steady.keeps_recording _)
    fun _ => .bind keeps_require fun _ => .bind (hexec ⟨rfl, rfl⟩) fun _ => .bind (hquery _) fun _ =>
    .bind (hexec rfl) fun _ => .bind (hquery _) fun _ => .bind (hexec trivial) fun _ => .pure fun _ hw => hw

theorem finishPreparedDelete_held (hA : ∀ {c : Change}, c.Removes id → A c) (before : Nat) :
    Keeps (Held u K b R S) (finishPreparedDelete u id before) := by
  refine controlOperation_held (.bind Reserved.steady.check fun _ => Reserved.steady.orFailed ?_)
  exact .bind (trim_held h hRS fun hc => hA (hc.removes id)) fun _ =>
    .bind (keeps_transaction hRS (h.keeps_exec (hA rfl))) fun _ =>
    .bind (.bind Reserved.steady.risk fun _ => Reserved.steady.keeps_query _) fun _ => .pure fun _ hw => hw

theorem deleteRecording_idle (hA : ∀ {c : Change}, c.Removes id → A c) (ownerRequested : Bool) :
    Keeps (Idle u b R S) (deleteRecording u id ownerRequested) :=
  controlOperation_idle (.bind Reserved.steady.check fun _ =>
    .bind (keeps_transaction hRS (prepareDelete_held h hA ownerRequested)) fun _ =>
    finishPreparedDelete_held h hRS hA _)

end

/-! ## Manifests -/

theorem manifest_keeps (hI : Steady I)
    (hpersist : ∀ items before after, Keeps I (persistIntegrity u id items before after)) :
    Keeps I (manifest u id) := by
  refine .bind hI.check fun _ => .bind (hI.keeps_recording _) fun _ => .bind (hI.keeps_query _) fun _ =>
    .bind (hI.clips _ _ _) fun _ => .bind (hI.keeps_query _) fun _ => .bind (.handle (F := fun _ => I) ?_ fun _ => ?_)
    fun _ => .pure fun _ hw => hw
  · exact .bind (hpersist _ _ _) fun _ => .pure fun _ hw => hw
  · exact .ite (fun _ => .pure fun _ hw => hw) fun _ => .fail fun _ hw => hw

section

variable (h : Closed u b A R) (hRS : ∀ {n t}, R n t → S n t) (hA : ∀ {c : Change}, c.Edits → A c)

include h hRS hA

omit hRS in
theorem persistIntegrity_body (items : List Clip) (before after : Status) :
    Keeps (Held u K b R R) (do
      forEach (fun item : Clip => exec (.setIntegrity item.segment item.integrity)) items
      whenever (after ≠ before) (exec (.setStatus id after))) :=
  .bind (Keeps.forEach (fun item : Clip => h.keeps_exec (c := .setIntegrity item.segment item.integrity)
      (hA trivial)) items) fun _ =>
    .whenever (fun _ => h.keeps_exec (hA trivial)) fun _ hw _ => hw

theorem manifest_held : Keeps (Held u K b R S) (manifest u id) :=
  manifest_keeps Reserved.steady fun _ _ _ => keeps_transaction hRS (persistIntegrity_body h hA _ _ _)

theorem manifest_idle : Keeps (Idle u b R S) (manifest u id) :=
  manifest_keeps Idle.steady fun _ _ _ => transaction_idle hRS (persistIntegrity_body h hA _ _ _)

/-! ## Stopping, closing, starring -/

theorem releaseSource_idle (source : UUID) : Keeps (Idle u b R S) (releaseSource u source) := by
  have hexec : ∀ {c : Change}, c.Edits → Keeps (Held u (fun _ _ => True) b R R) (exec c) :=
    fun hc => h.keeps_exec (hA hc)
  refine controlOperation_idle (.bind Reserved.steady.check fun _ => .bind (keeps_transaction hRS ?_) fun _ =>
    Reserved.steady.orFailed (trim_held h hRS fun hc => hA hc.edits))
  exact .bind (hexec trivial) fun _ => .bind (Reserved.steady.keeps_query _) fun _ => .bind (hexec trivial)
    fun _ => .bind (Reserved.steady.keeps_query _) fun _ => hexec trivial

theorem stopRecording_held (row : RecordingRow) (stopMs : Option Int) :
    Keeps (Held u K b R S) (stopRecording u row stopMs) := by
  have hexec : ∀ {c : Change}, c.Edits → Keeps (Held u K b R R) (exec c) := fun hc => h.keeps_exec (hA hc)
  refine .bind (Reserved.steady.keeps_query _) fun _ => .bind (keeps_transaction hRS ?_) fun _ => .whenever
    (fun _ => Reserved.steady.orFailed (trim_held h hRS fun hc => hA hc.edits)) fun _ hw _ => hw
  refine .bind (hexec trivial) fun _ => .whenever (fun _ => ?_) fun _ hw _ => hw
  exact .bind (Reserved.steady.keeps_query _) fun _ => .bind (hexec trivial) fun _ =>
    .bind (Reserved.steady.keeps_query _) fun _ => hexec trivial

theorem finish_idle (stopMs : Option Int) : Keeps (Idle u b R S) (finish u id stopMs) := by
  refine controlOperation_idle (.bind Reserved.steady.check fun _ => .bind (Reserved.steady.keeps_recording _)
    fun row => .bind keeps_require fun _ => .bind (.whenever (fun _ => stopRecording_held h hRS hA row stopMs)
      fun _ hw _ => hw) fun _ => .bind (manifest_held h hRS hA) fun _ => .ite (fun _ => ?_) fun _ => ?_)
  · exact .bind (keeps_transaction hRS (h.keeps_exec (hA trivial))) fun _ => .pure fun _ hw => hw
  · exact .pure fun _ hw => hw

theorem advance_idle (nowMs : Int) : Keeps (Idle u b R S) (advance u nowMs) :=
  .bind Idle.steady.check fun _ => .bind keeps_require fun _ => .bind (Idle.steady.keeps_query _) fun _ =>
    Keeps.forEach (fun _ => .bind (finish_idle h hRS hA none) fun _ => .pure fun _ hw => hw) _

theorem setStarred_idle (starred : Bool) : Keeps (Idle u b R S) (setStarred u id starred) :=
  controlOperation_idle (.bind Reserved.steady.check fun _ => .bind (Reserved.steady.keeps_recording _) fun _ =>
    keeps_transaction hRS (h.keeps_exec (hA trivial)))

end

end Sentinel.Recording
