import Sentinel.Recording.Reservation

/-!
# Control reservations and transactions

The programs that take no reservation keep every predicate that does not look at the turns left. A statement
takes one demand on the tables to another, and so does a transaction. A control reservation is taken from an
idle world and given back on every exit; where one is held, the program only runs its body.
-/

namespace Sentinel.Recording

open Program

variable {u : Setup} {a b : Bool} {R S Q F : Demand} {A : Change → Prop} {w w' : World}
  {K : Policy → Option Space → Prop} {α β : Type} {I : World → Prop}

/-! ## Frames -/

theorem World.Unreserved.frame (h : w.Unreserved) (hp : w'.policy = w.policy)
    (ha : w'.reservationActive = w.reservationActive) : w'.Unreserved :=
  ⟨hp ▸ h.reservation, ha ▸ h.active, hp ▸ h.media, hp ▸ h.total⟩

theorem Calm.frame (h : Calm u b R S w) (hl : w'.log = w.log) (hr : w'.reclaiming = w.reclaiming)
    (ht : w'.tables = w.tables) (hs : w'.saved = w.saved) : Calm u b R S w' :=
  ⟨hl ▸ h.log, hr ▸ h.reclaiming, by rw [hl, ht]; exact h.tables, by rw [hl, hs]; exact h.saved⟩

theorem Calm.conseq (h : Calm u b R S w) (hR : ∀ {n t}, R n t → Q n t) (hS : ∀ {n t}, S n t → F n t) :
    Calm u b Q F w :=
  ⟨h.log, h.reclaiming, hR h.tables, fun t ht => hS (h.saved t ht)⟩

theorem Calm.note (h : Calm u b R S w) {e : Entry} (he : e.Ok u) (hc : ∀ log, charged (e :: log) = charged log)
    (hl : w'.log = e :: w.log) (hr : w'.reclaiming = w.reclaiming) (ht : w'.tables = w.tables)
    (hs : w'.saved = w.saved) : Calm u b R S w' := by
  refine ⟨?_, hr ▸ h.reclaiming, ?_, ?_⟩
  · rw [hl]
    exact List.forall_mem_cons.mpr ⟨he, h.log⟩
  · rw [hl, hc, ht]
    exact h.tables
  · rw [hl, hc, hs]
    exact h.saved

/-- The predicate looks neither at the turns left nor at the failure flag. -/
structure Steady (I : World → Prop) : Prop where
  turns : ∀ {w ts}, I w → I { w with turns := ts }
  failed : ∀ {w}, I w → I { w with failed := true }

theorem Idle.steady : Steady (Idle u b R S) where
  turns h := ⟨h.unreserved.frame rfl rfl, h.calm.frame rfl rfl rfl rfl⟩
  failed h := ⟨h.unreserved.frame rfl rfl, h.calm.frame rfl rfl rfl rfl⟩

theorem Reserved.steady : Steady (Reserved u a K b R S) where
  turns h := ⟨h.held, h.active, h.policy, h.calm.frame rfl rfl rfl rfl⟩
  failed h := ⟨h.held, h.active, h.policy, h.calm.frame rfl rfl rfl rfl⟩

theorem Idle.conseq (h : Idle u b R S w) (hR : ∀ {n t}, R n t → Q n t) (hS : ∀ {n t}, S n t → F n t) :
    Idle u b Q F w :=
  ⟨h.unreserved, h.calm.conseq hR hS⟩

theorem Reserved.conseq (h : Reserved u a K b R S w) (hR : ∀ {n t}, R n t → Q n t)
    (hS : ∀ {n t}, S n t → F n t) : Reserved u a K b Q F w :=
  ⟨h.held, h.active, h.policy, h.calm.conseq hR hS⟩

variable {J : World → Prop} {body : StoreM α} {c : Change} {T : StorageState → Prop} {stop : StoreM Unit}

theorem Steady.and (hI : Steady I) (hJ : Steady J) : Steady fun w => I w ∧ J w where
  turns h := ⟨hI.turns h.1, hJ.turns h.2⟩
  failed h := ⟨hI.failed h.1, hJ.failed h.2⟩

/-! ## Programs that take no reservation -/

namespace Steady

variable (h : Steady I)

include h

theorem turn : Keeps I turn := by
  intro w hw
  unfold Recording.turn
  cases w.turns with
  | nil => exact hw
  | cons t ts =>
    dsimp only
    cases t.fault with
    | none | some f => exact h.turns hw

theorem risk : Keeps I risk := .bind h.turn fun _ => .pure fun _ hw => hw

theorem check : Keeps I check :=
  .bind (.read fun _ hw => hw) fun _ => .bind (.require (fun _ hw _ => hw) fun _ hw _ => hw) fun _ => h.risk

theorem query (f : Tables → α) :
    Triple I (query f) (fun x w => I w ∧ x = f w.tables) fun _ => I :=
  .bind h.risk fun _ => .read fun _ hw => ⟨hw, rfl⟩

theorem keeps_query (f : Tables → α) : Keeps I (Recording.query f) :=
  (h.query f).returning (fun _ _ hw => hw.1)

theorem usageBytes (starredOnly criticalOnly : Bool) :
    Triple I (usageBytes starredOnly criticalOnly)
      (fun x w => I w ∧ x = w.tables.usageBytes starredOnly criticalOnly) fun _ => I :=
  .bind h.risk fun _ => h.query _

theorem recording (id : UUID) :
    Triple I (recording id) (fun row w => I w ∧ w.tables.recordings.find? id = some row) fun _ => I := by
  refine .bind (h.query _) fun row => ?_
  cases row with
  | none => exact .fail fun _ hw => hw.1
  | some row => exact .pure fun _ hw => ⟨hw.1, hw.2.symm⟩

theorem keeps_recording (id : UUID) : Keeps I (Recording.recording id) :=
  (h.recording id).returning (fun _ _ hw => hw.1)

theorem integrity : Keeps I integrity :=
  .handle (.bind h.turn fun _ => .pure fun _ hw => hw)
    fun _ => .ite (fun _ => .pure fun _ hw => hw) fun _ => .fail fun _ hw => hw

theorem clips (row : RecordingRow) (cursor : Int) (rows : List SegmentRow) :
    Keeps I (clips row cursor rows) := by
  induction rows generalizing cursor with
  | nil => exact .pure fun _ hw => hw
  | cons s rest ih =>
    refine .ite (fun _ => ih cursor) fun _ => ?_
    exact .bind h.integrity fun _ => .bind (ih _) fun _ => .pure fun _ hw => hw

theorem orFailed {Q : α → World → Prop} (hbody : Triple I body Q fun _ => I) : Triple I (orFailed body) Q fun _ => I :=
  .handle hbody fun _ => .bind (.modify (R := fun _ => I) fun _ hw => h.failed hw) fun _ => .fail fun _ hw => hw

end Steady

theorem keeps_require {c : Prop} [Decidable c] {f : Failure} : Keeps I (require c f : StoreM Unit) :=
  .require (fun _ hw _ => hw) fun _ hw _ => hw

/-! ## Statements and transactions -/

theorem charged_append (l l' : List Entry) : charged (l ++ l') = charged l + charged l' := by
  induction l with
  | nil => simp [charged]
  | cons e l ih => cases e <;> simp [charged, ih, Nat.add_assoc]

theorem charged_entries (c : Change) (t : Tables) : charged (c.entries t b) = c.charge t := by
  cases c with
  | setStatus recording status => cases status <;> rfl
  | _ => rfl

theorem exec_spec (hS : S.Mono) (hc : ∀ {n t}, t.allows c = true → R n t → Q (n + c.charge t) (t.apply c))
    (he : ∀ {n t}, t.allows c = true → R n t → ∀ e ∈ c.entries t b, e.Ok u) :
    Triple (Reserved u a K b R S) (exec c) (fun _ => Reserved u a K b Q S)
      fun _ => Reserved u a K b R S := by
  refine .bind Reserved.steady.risk fun _ => .read_bind fun allowed => ?_
  refine .bind (.require (R := fun _ w => Reserved u a K b R S w ∧ w.tables.allows c = true)
    (fun w hw hallowed => ⟨hw.1, hw.2.trans hallowed⟩) fun w hw _ => hw.1) fun _ => .modify ?_
  rintro w ⟨hw, hallowed⟩
  have hlog : charged (w.perform c).log = charged w.log + c.charge w.tables := by
    change charged (c.entries w.tables w.reclaiming ++ w.log) = _
    rw [charged_append, charged_entries, Nat.add_comm]
  refine ⟨hw.held, hw.active, hw.policy, ?_, hw.calm.reclaiming, ?_, ?_⟩
  · intro e hmem
    rcases List.mem_append.mp hmem with hnew | hold
    · rw [hw.calm.reclaiming] at hnew
      exact he hallowed hw.calm.tables e hnew
    · exact hw.calm.log e hold
  · rw [hlog]
    exact hc hallowed hw.calm.tables
  · intro t ht
    rw [hlog]
    exact hS (Nat.le_add_right _ _) (hw.calm.saved t ht)

theorem Closed.exec (h : Closed u b A R) (hS : S.Mono) (hc : A c) : Keeps (Reserved u a K b R S) (exec c) :=
  exec_spec hS (h.change hc) (h.entries hc)

theorem Closed.keeps_exec (h : Closed u b A R) (hc : A c) : Keeps (Reserved u a K b R R) (Recording.exec c) :=
  h.exec h.mono hc

theorem endTransaction_spec {E : World → Prop} {f : World → World} (hI : Steady I) (hf : ∀ w, I w → J (f w))
    (hIE : ∀ w, I w → E w) (hJE : ∀ w, J w → E w) : Triple I (endTransaction f) (fun _ => J) fun _ => E := by
  refine .bind (hI.turn.raising fun _ w => hIE w) fun t => ?_
  refine .bind (.modify (R := fun _ => J) fun w hw => hf w hw) fun _ => ?_
  cases t.late with
  | none => exact .pure fun _ hw => hw
  | some f => exact .fail fun w hw => hJE w hw

theorem rollback_spec (hRF : ∀ {n t}, R n t → F n t) (hRS : ∀ {n t}, R n t → S n t) :
    Triple (Reserved u a K b F R) rollback (fun _ => Reserved u a K b F S) fun _ => Reserved u a K b F S := by
  refine endTransaction_spec Reserved.steady ?_ (fun w hw => hw.conseq id hRS) fun w hw => hw
  intro w hw
  refine ⟨hw.held, hw.active, hw.policy, hw.calm.log, hw.calm.reclaiming, ?_, fun t ht => by cases ht⟩
  change F (charged w.log) (w.saved.getD w.tables)
  cases hs : w.saved with
  | none => exact hw.calm.tables
  | some t => exact hRF (hw.calm.saved t hs)

theorem commit_spec (hQF : ∀ {n t}, Q n t → F n t) :
    Triple (Reserved u a K b Q R) commit (fun _ => Reserved u a K b Q S)
      fun _ w => Reserved u a K b F R w := by
  refine endTransaction_spec (J := Reserved u a K b Q fun _ _ => False) Reserved.steady ?_ ?_ ?_ |>.weaken
    (fun _ w hw => hw.conseq id False.elim) fun _ w hw => hw
  · intro w hw
    exact ⟨hw.held, hw.active, hw.policy, hw.calm.log, hw.calm.reclaiming, hw.calm.tables,
      fun t ht => by cases ht⟩
  · exact fun w hw => hw.conseq hQF id
  · exact fun w hw => hw.conseq hQF False.elim

/-- A transaction that starts with none under way: `R` holds before it and of what a rollback brings back,
`Q` holds after it, and `F` is what is left when something raises. -/
theorem attempt_spec {Q : α → Demand} (hRS : ∀ {n t}, R n t → S n t) (hRF : ∀ {n t}, R n t → F n t)
    (hQF : ∀ {x n t}, Q x n t → F n t)
    (hbody : Triple (Reserved u a K b R R) body (fun x => Reserved u a K b (Q x) R) fun _ => Reserved u a K b F R) :
    Triple (Reserved u a K b R fun _ _ => False) (attempt body) (fun x => Reserved u a K b (Q x) S)
      fun _ => Reserved u a K b F S := by
  refine .handle (F := fun _ => Reserved u a K b F R) ?_ fun f => ?_
  · refine .bind (Reserved.steady.risk.raising fun _ w hw => hw.conseq hRF False.elim)
      fun _ => .bind (.modify (R := fun _ => Reserved u a K b R R) ?_) fun _ => .bind hbody fun x => ?_
    · intro w hw
      refine ⟨hw.held, hw.active, hw.policy, hw.calm.log, hw.calm.reclaiming, hw.calm.tables, ?_⟩
      rintro t ⟨⟩
      exact hw.calm.tables
    · exact .bind (commit_spec hQF) fun _ => .pure fun _ hw => hw
  · refine .read_bind fun busy => .bind (Q := fun _ => Reserved u a K b F S) (.whenever (fun _ => ?_) ?_)
      fun _ => .fail fun _ hw => hw
    · exact (rollback_spec hRF hRS).strengthen fun w hw => hw.1
    · exact fun w hw _ => hw.1.conseq id hRS

/-! ## Reservations -/

theorem Idle.setPolicy {p : Policy} (h : Idle u b R S w) (hr : p.reservation = w.policy.reservation)
    (hm : p.reservedMedia = w.policy.reservedMedia) (ht : p.reservedTotal = w.policy.reservedTotal) :
    Idle u b R S { w with policy := p } :=
  ⟨⟨hr.trans h.unreserved.reservation, h.unreserved.active, hm.trans h.unreserved.media,
    ht.trans h.unreserved.total⟩, h.calm.frame rfl rfl rfl rfl⟩

/-- A release without the store's mirror; `T` is what is known of the state of the policy. -/
theorem release_spec (hK : ∀ {p s}, K p s → T p.state) :
    Triple (Reserved u false K b R S) release (fun _ w => Idle u b R S w ∧ T w.policy.state)
      fun _ _ => False := by
  refine .bind (.modify (R := fun _ => Reserved u false K b R S) fun w hw => ?_) fun _ =>
    .read_bind fun held => .bind (.require (R := fun _ => Reserved u false K b R S) (fun w hw _ => hw.1) ?_)
      fun _ => .modify fun w hw => ?_
  · exact ⟨hw.held, hw.active, hw.policy, hw.calm.note (e := .releases w.policy.reservation) hw.held (fun _ => rfl) rfl rfl rfl rfl⟩
  · exact fun w hw hnot => hnot (hw.2.symm.trans hw.1.held)
  · exact ⟨⟨⟨rfl, hw.active, rfl, rfl⟩, hw.calm.frame rfl rfl rfl rfl⟩, hK (p := w.policy) hw.policy⟩

theorem releaseReservation_spec (hK : ∀ {p s}, K p s → T p.state) :
    Triple (Held u K b R S) releaseReservation (fun _ w => Idle u b R S w ∧ T w.policy.state)
      fun _ _ => False := by
  refine .bind (.modify (R := fun _ => Reserved u false K b R S) fun w hw => ?_) fun _ =>
    .handle (release_spec hK) fun f => ?_
  · exact ⟨hw.held, rfl, hw.policy, hw.calm.frame rfl rfl rfl rfl⟩
  · exact fun w hw => hw.elim

/-- `admit_control` from an idle world, whatever idle world its handler leaves. -/
theorem admitControlWith_spec (hstop : Keeps (Idle u b R S) stop) :
    Triple (Idle u b R S) (admitControlWith u stop) (fun _ => Reserved u false (fun _ _ => True) b R S)
      fun _ => Idle u b R S := by
  -- the sample the admission decides on
  let M : Policy → Option Space → Prop := fun p s =>
    ∃ space, s = some space ∧ u.storage.hardReserveBytes ≤ space.available - p.reservedTotal
  refine .bind (.modify (R := fun _ => Idle u b R S) fun w hw => ?_) fun _ => .read_bind fun held =>
    .bind (.require (R := fun _ => Idle u b R S) (fun w hw _ => hw.1) fun w hw _ => hw.1) fun _ =>
    .bind (Q := fun _ w => Idle u b R S w ∧ ∃ space, w.lastSample = some space ∧
      u.storage.hardReserveBytes ≤ space.available - u.storage.writeOverheadBytes)
      (.handle (F := fun _ => Idle u b R S) ?_ fun f => ?_)
      fun _ => .bind (.modify (R := fun _ => Reserved u false M b R S) fun w hw => ?_) fun _ =>
        .modify fun w hw => ?_
  · exact ⟨hw.unreserved.frame rfl rfl,
      hw.calm.note (e := .admits .control w.policy.reservation) hw.unreserved.reservation (fun _ => rfl) rfl rfl
        rfl rfl⟩
  · refine .bind (Q := fun space w => Idle u b R S w ∧ w.lastSample = some space)
      (E := fun _ => Idle u b R S) (.bind Idle.steady.turn fun t =>
        .bind (.modify (R := fun _ w => Idle u b R S w ∧ w.lastSample = some t.space) fun w hw => ?_)
          fun _ => .pure fun w hw => hw) fun space => .require (fun w hw hc => ?_) fun w hw _ => hw.1
    · exact ⟨⟨hw.unreserved.frame rfl rfl, hw.calm.frame rfl rfl rfl rfl⟩, rfl⟩
    · exact ⟨hw.1, space, hw.2, hc.2.2⟩
  · exact .ite (fun _ => .bind hstop fun _ => .fail fun _ hw => hw) fun _ => .fail fun _ hw => hw
  · exact ⟨rfl, hw.1.unreserved.active, hw.2, hw.1.calm.frame rfl rfl rfl rfl⟩
  · exact ⟨hw.held, hw.active, trivial, hw.calm.note
      (e := .admitted .control w.lastSample w.policy.reservedTotal) hw.policy (fun _ => rfl) rfl rfl rfl rfl⟩

theorem auditWith_idle (hstop : Keeps (Idle u b R S) stop) : Keeps (Idle u b R S) (auditWith u stop) := by
  refine .bind (.read fun _ hw => hw) fun _ => .bind keeps_require fun _ => .read_bind fun held =>
    .ite (fun _ => ?_) fun _ => ?_
  · exact (Idle.steady.risk).strengthen fun _ hw => hw.1
  · refine .bind ((admitControlWith_spec hstop).strengthen fun _ hw => hw.1) fun _ =>
      .ensure Reserved.steady.risk (fun _ => ?_) fun _ => ?_
    all_goals
      exact (release_spec (T := fun _ => True) fun _ => trivial).weaken (fun _ _ hw => hw.1)
        fun _ _ hw => hw.elim

theorem transitionWith_idle (hstop : Keeps (Idle u b R S) stop) (state : StorageState) :
    Keeps (Idle u b R S) (transitionWith u stop state) := by
  refine .bind (.read fun _ hw => hw) fun _ => .ite (fun _ => .pure fun _ hw => hw) fun _ =>
    .bind (.modify (R := fun _ => Idle u b R S) fun w hw => hw.setPolicy rfl rfl rfl) fun _ =>
    .handle (.bind Idle.steady.risk fun _ => auditWith_idle hstop) fun _ => .ite (fun _ => ?_) fun _ => ?_
  · exact .modify fun w hw => hw.setPolicy rfl rfl rfl
  · exact .fail fun _ hw => hw

theorem transition_idle (state : StorageState) : Keeps (Idle u b R S) (transition u state) :=
  transitionWith_idle (transitionWith_idle (.pure fun _ hw => hw) _) state

theorem admitControl_spec :
    Triple (Idle u b R S) (admitControl u) (fun _ => Reserved u false (fun _ _ => True) b R S)
      fun _ => Idle u b R S :=
  admitControlWith_spec (transition_idle _)

/-- The policy has stopped the recording. -/
abbrev World.Stopped (w : World) : Prop := w.policy.state = .hardStop

theorem World.Stopped.steady : Steady World.Stopped := ⟨fun h => h, fun h => h⟩

theorem admitControlWith_agree {stop' : StoreM Unit} (h : Agree World.Stopped stop stop') :
    Agree World.Stopped (admitControlWith u stop) (admitControlWith u stop') := by
  refine .bind (.modify (R := fun _ => World.Stopped) (E := fun _ _ => True) fun _ hw => hw) fun _ =>
    .bind (.read (Q := fun _ => World.Stopped) (E := fun _ _ => True) fun _ hw => hw) fun _ =>
    .bind keeps_require fun _ => .of_bind (.handle (Q := fun _ => World.Stopped) (E := fun _ => World.Stopped) ?_ fun _ => ?_)
  · exact .bind (.bind World.Stopped.steady.turn fun _ => .bind (.modify (R := fun _ => World.Stopped) fun _ hw => hw)
      fun _ => .pure (Q := fun _ => World.Stopped) fun _ hw => hw) fun _ => keeps_require
  · exact .ite (fun _ => .of_bind h) fun _ => .refl

/-- The recursion of the source: the audit's own admission can stop the policy by another transition. -/
theorem transition_eq (state : StorageState) :
    transition u state = transitionWith u (transition u .hardStop) state := by
  have hstop : Agree World.Stopped (pure ()) (transitionWith u (pure ()) .hardStop) := by
    intro w hw
    change _ = (if w.policy.state = .hardStop then pure () else _ : StoreM Unit) w
    rw [if_pos hw]
  have h : Agree (fun _ => True) (transitionWith u (pure ()) .hardStop) (transition u .hardStop) := by
    refine .bind (.read (Q := fun _ _ => True) (E := fun _ _ => True) fun _ _ => trivial) fun _ =>
      .ite (fun _ => .refl) fun _ =>
      .bind (.modify (R := fun _ => World.Stopped) (E := fun _ _ => True) fun _ _ => rfl) fun _ => .of_handle ?_
    refine .bind World.Stopped.steady.risk fun _ =>
      .bind (.read (Q := fun _ => World.Stopped) (E := fun _ _ => True) fun _ hw => hw) fun _ =>
      .bind keeps_require fun _ =>
      .bind (.read (Q := fun _ => World.Stopped) (E := fun _ _ => True) fun _ hw => hw) fun _ => ?_
    exact .ite (fun _ => .refl) fun _ => .of_bind (admitControlWith_agree hstop)
  have heq : transitionWith u (pure ()) .hardStop = transition u .hardStop := funext fun w => h w trivial
  change transitionWith u (transitionWith u (pure ()) .hardStop) state = _
  rw [heq]

/-- Where the policy holds a reservation, its audit shares it: a transition takes no sample. -/
theorem transitionWith_reserved {L : Policy → Option Space → Prop} (state : StorageState)
    (hsame : ∀ {p s}, K p s → p.state = state → L p s) (hset : ∀ {p s}, K p s → L { p with state := state } s)
    (hfail : ∀ {p s}, L p s → L { p with auditDeliveryFailed := true } s) :
    Triple (Reserved u a K b R S) (transitionWith u stop state) (fun _ => Reserved u a L b R S)
      fun _ => Reserved u a L b R S := by
  refine .read_bind fun current => .ite (fun hc => .pure fun w hw => ?_) fun _ =>
    .bind (.modify (R := fun _ => Reserved u a L b R S) fun w hw => ?_) fun _ =>
    .handle (F := fun _ => Reserved u a L b R S) (.bind Reserved.steady.risk fun _ =>
      .bind (.read fun _ hw => hw) fun _ => .bind keeps_require fun _ => .read_bind fun held =>
        .ite (fun _ => ?_) fun hfree => ?_) fun _ => .ite (fun _ => .modify fun w hw => ?_) fun _ => .fail fun _ hw => hw
  · exact ⟨hw.1.held, hw.1.active, hsame hw.1.policy (hw.2.trans hc), hw.1.calm⟩
  · exact ⟨hw.1.held, hw.1.active, hset hw.1.policy, hw.1.calm.frame rfl rfl rfl rfl⟩
  · exact Reserved.steady.risk.strengthen fun _ hw => hw.1
  · exact .of_fact (φ := False) (fun w hw => hfree (hw.2.symm.trans hw.1.held)) False.elim
  · exact ⟨hw.held, hw.active, hfail hw.policy, hw.calm.frame rfl rfl rfl rfl⟩

/-! ## Operations under a control reservation -/

theorem controlReservation_active {P : World → Prop} {Q : α → World → Prop} {E : Failure → World → Prop}
    (hP : ∀ w, P w → w.reservationActive = true) (hbody : Triple P body Q E) : Triple P (controlReservation u body) Q E := by
  refine .read_bind fun active => .ite (fun _ => hbody.strengthen fun w hw => hw.1) fun hfree => ?_
  exact .of_fact (φ := False) (fun w hw => hfree (hw.2.symm.trans (hP w hw.1))) False.elim

theorem controlReservation_idle {Q : α → Demand} (hRF : ∀ {n t}, R n t → F n t) {S' : Demand} (hS : ∀ {n t}, S n t → S' n t)
    (hbody : Triple (Held u (fun _ _ => True) b R S) body (fun x => Held u (fun _ _ => True) b (Q x) S')
      fun _ => Held u (fun _ _ => True) b F S') :
    Triple (Idle u b R S) (controlReservation u body) (fun x => Idle u b (Q x) S')
      fun _ => Idle u b F S' := by
  refine .read_bind fun active => .ite (fun hactive => ?_) fun _ => ?_
  · exact .of_fact (φ := False) (fun w hw => by
      have := hw.1.unreserved.active
      rw [hw.2, hactive] at this
      cases this) False.elim
  · refine .bind ((admitControl_spec.raising fun _ w hw => hw.conseq hRF hS).strengthen
      fun w hw => hw.1) fun _ => .bind (.modify (R := fun _ => Held u (fun _ _ => True) b R S) fun w hw => ?_)
      fun _ => .ensure hbody (fun x => ?_) fun _ => ?_
    · exact ⟨hw.held, rfl, trivial, hw.calm.frame rfl rfl rfl rfl⟩
    all_goals
      exact (releaseReservation_spec (T := fun _ => True) fun _ => trivial).weaken (fun _ _ hw => hw.1)
        fun _ _ hw => hw.elim

end Sentinel.Recording
