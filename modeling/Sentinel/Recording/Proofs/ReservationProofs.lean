import Sentinel.Lib.History
import Sentinel.Recording.Proofs.AdmissionProofs

/-!
# Reservations are balanced and keep the hard reserve

In every run of operations of the store, whatever raises: each operation ends without a reservation, calls
admissions only without one and releases only with one; an admission returns only when the last sample keeps
the hard reserve; and the reclamation of an admission deletes no active or starred recording and no segment
linked to one.
-/

namespace Sentinel.Recording

open Program

variable {u : Setup} {R S F : Demand} {A : Change → Prop} {w : World} {K : Policy → Option Space → Prop} {α : Type}
  {id : UUID}

/-! ## Admitted operations -/

/-- The policy is in the state. -/
abbrev InState (state : StorageState) (p : Policy) (_ : Option Space) : Prop := p.state = state

variable {Q : StorageState → Demand} {critical : Bool} {segment : Segment}

/-- Between operations, with the demand that the state of the policy makes. -/
abbrev Leaving (u : Setup) (Q : StorageState → Demand) (w : World) : Prop :=
  Idle u false (Q w.policy.state) (Q w.policy.state) w

/-- An operation under the reservation of its request: what its body leaves, given the state that the
admission left the policy in, is what the operation leaves. -/
theorem admittedOperation_spec {media : Nat} {body : StoreM α} (h : Closed u false Change.Edits R)
    (hRQ : ∀ {state n t}, R n t → Q state n t)
    (hbody : ∀ state, Leads (fun w => Held u (InState state) false R R w ∧ Allowed u media critical w) body
      (Held u (InState state) false (Q state) (Q state))) :
    Leads (Idle u false R R) (admittedOperation u media critical body) (Leaving u Q) := by
  refine .bind ((admitMedia_spec h id media critical).raising fun _ w hw => hw.conseq hRQ hRQ)
    fun _ => .bind (.modify (R := fun _ w => ∃ state, Held u (InState state) false R R w ∧ Allowed u media critical w)
      fun w hw => ?_) fun _ => .of_exists fun state => ?_
  · exact ⟨w.policy.state, ⟨hw.1.held, rfl, rfl, hw.1.calm.frame rfl rfl rfl rfl⟩, hw.2.pressure, hw.2.room⟩
  · refine .ensure (hbody state) (fun _ => ?_) fun _ => ?_
    all_goals
      refine (releaseReservation_spec (T := (· = state)) fun hK => hK).weaken ?_ fun _ _ hw => hw.elim
      rintro _ w ⟨hw, rfl⟩
      exact hw

/-! ## Appending -/

theorem Change.Evicts.publishes {c : Change} (hc : c.Evicts) (id : UUID) : c.Publishes id := by
  cases c <;> first | exact hc | exact hc.elim

theorem publish_held (h : Closed u false A R) (hRS : ∀ {n t}, R n t → S n t)
    (hA : ∀ {c : Change}, c.Publishes id → A c) (segment : Segment) (active : List RecordingRow)
    (prior : Option Cursor) : Keeps (Held u K false R S) (publish u id segment active prior) := by
  have hexec : ∀ {c : Change}, c.Publishes id → Keeps (Held u K false R R) (exec c) := fun hc => h.keeps_exec (hA hc)
  refine keeps_transaction hRS (.bind (hexec rfl) fun _ => .bind (hexec trivial) fun _ =>
    .bind (Keeps.forEach (fun gap => hexec (c := .noteSource gap) trivial) _) fun _ => Keeps.forEach (fun row => ?_) _)
  exact .bind (hexec (c := .link row.id [id]) rfl) fun _ =>
    Keeps.forEach (fun gap : Discontinuity => hexec (c := .note [{ gap with owner := row.id }]) trivial) _

/-- The journal entry takes the demand `R` to `Q`, which the publication keeps. -/
theorem writeSegment_held {Q : Demand} {active : List RecordingRow} {prior : Option Cursor} {P : World → Prop}
    (h : Closed u false A Q) (hQS : ∀ {n t}, Q n t → S n t) (hQF : ∀ {n t}, Q n t → F n t)
    (hA : ∀ {c : Change}, c.Publishes id → A c)
    (hjournal : Triple P (transaction u (exec (.journal (segment.row id critical)))) (fun _ => Held u K false Q S)
      fun _ => Held u K false F S) :
    Triple P (writeSegment u id segment active prior critical) (fun _ => Held u K false Q S)
      fun _ => Held u K false F S := by
  have hweak : ∀ {β : Type} {p : StoreM β}, Keeps (Held u K false Q S) p →
      Triple (Held u K false Q S) p (fun _ => Held u K false Q S) fun _ => Held u K false F S :=
    fun hp => hp.raising fun _ _ hw => hw.conseq hQF (fun ht => ht)
  refine .handle (F := fun _ => Held u K false F S) (.bind hjournal fun _ => .bind (hweak Reserved.steady.risk) fun _ =>
    .bind (hweak (publish_held h hQS hA _ _ _)) fun _ =>
    .bind (hweak (trim_held h hQS fun hc => hA (hc.publishes id))) fun _ => .pure fun _ hw => hw) fun _ =>
    .bind (.modify (R := fun _ => Held u K false F S) fun _ hw => Reserved.steady.failed hw) fun _ =>
      .fail fun _ hw => hw

theorem Idle.before_admission {p : StoreM α} (hRQ : ∀ {state n t}, R n t → Q state n t) (hp : Keeps (Idle u false R R) p) :
    Triple (Idle u false R R) p (fun _ => Idle u false R R) fun _ => Leaving u Q :=
  hp.raising fun _ _ hw => hw.conseq hRQ hRQ

theorem append_spec (h : Closed u false Change.Edits R) (hRQ : ∀ {state n t}, R n t → Q state n t)
    (hbody : ∀ state active prior critical,
      Leads (fun w => Held u (InState state) false R R w ∧ Allowed u segment.byteLength critical w)
        (writeSegment u id segment active prior critical) (Held u (InState state) false (Q state) (Q state))) :
    Leads (Idle u false R R) (append u segment id) (Leaving u Q) := by
  have hweak : ∀ {β : Type} {p : StoreM β}, Keeps (Idle u false R R) p → Triple (Idle u false R R) p
      (fun _ => Idle u false R R) fun _ => Leaving u Q := Idle.before_admission hRQ
  have hquery : ∀ {β : Type} (f : Tables → β), Keeps (Idle u false R R) (query f) := Idle.steady.keeps_query
  exact .bind (hweak Idle.steady.check) fun _ => .bind (hweak keeps_require) fun _ =>
    .bind (hweak Idle.steady.risk) fun _ => .bind (hweak (hquery _)) fun _ => .bind (hweak keeps_require) fun _ =>
    .bind (hweak (hquery _)) fun _ => .bind (hweak (hquery _)) fun _ => .bind (hweak keeps_require) fun _ =>
    .bind (hweak (hquery _)) fun prior => .bind (hweak keeps_require) fun _ => .bind (hweak (hquery _)) fun active =>
    .bind (hweak (Keeps.forEach (fun _ => .bind (hquery _) fun _ => keeps_require) _)) fun _ =>
    admittedOperation_spec h hRQ fun state => hbody state active prior _

/-! ## Starting -/

theorem startRecordings_held (h : Closed u false A R) (hRS : ∀ {n t}, R n t → S n t)
    (hA : ∀ {c : Change}, c.Starts → A c) (sources identities : List UUID) (startMs endMs : Int)
    (event : Option UUID) (critical : Bool) :
    Keeps (Held u K false R S) (startRecordings u sources identities startMs endMs event critical) := by
  have hexec : ∀ {c : Change}, c.Starts → Keeps (Held u K false R R) (exec c) := fun hc => h.keeps_exec (hA hc)
  have hquery : ∀ {β : Type} (f : Tables → β), Keeps (Held u K false R R) (query f) := Reserved.steady.keeps_query
  refine keeps_transaction hRS (.bind (hquery _) fun _ => .bind keeps_require fun _ => .bind (hquery _) fun _ =>
    .bind keeps_require fun _ => .bind (Keeps.forEach (fun p => ?_) _) fun _ => .pure fun _ hw => hw)
  exact .bind (hquery _) fun _ => .bind keeps_require fun _ => .bind (hexec trivial) fun _ => .bind (hquery _)
    fun _ => .bind (hexec trivial) fun _ => .bind (hquery _) fun _ => hexec trivial

theorem start_spec {sources : List UUID} {startMs endMs : Int} {event : Option UUID} {identities : Nat → UUID}
    (h : Closed u false Change.Edits R) (hRQ : ∀ {state n t}, R n t → Q state n t)
    (hbody : ∀ state ids, Leads (fun w => Held u (InState state) false R R w ∧ Allowed u 0 critical w)
      (startRecordings u sources ids startMs endMs event critical) (Held u (InState state) false (Q state) (Q state))) :
    Leads (Idle u false R R) (start u sources startMs endMs event critical identities) (Leaving u Q) :=
  .bind (Idle.before_admission hRQ Idle.steady.check) fun _ => .bind (Idle.before_admission hRQ keeps_require) fun _ =>
    admittedOperation_spec h hRQ fun state => hbody state _

/-! ## Runs -/

/-- No demand on the tables. -/
abbrev anything : Demand := fun _ _ => True

theorem entries_ok {c : Change} {t : Tables} : ∀ e ∈ c.entries t false, e.Ok u := by
  intro e he
  cases c with
  | setStatus recording status =>
    cases status with
    | deleting =>
      rw [List.mem_singleton.mp he]
      exact nofun
    | _ => cases he
  | deleteSegment segment | deleteRecording recording =>
    rw [List.mem_singleton.mp he]
    exact nofun
  | link recording segments =>
    rw [List.mem_singleton.mp he]
    trivial
  | _ => cases he

theorem closed_anything : Closed u false (fun _ => True) anything :=
  ⟨fun _ _ _ _ _ => trivial, fun _ _ _ => trivial, fun _ _ _ => entries_ok⟩

theorem Closed.restrict {B : Change → Prop} {b : Bool} (h : Closed u b A R) (hB : ∀ {c}, B c → A c) : Closed u b B R :=
  ⟨h.mono, fun hc => h.change (hB hc), fun hc => h.entries (hB hc)⟩

/-- An operation leaves what the writing of a segment and the start of recordings leave; the others only edit. -/
theorem run_spec (o : Operation) (h : Closed u false Change.Edits R) (hRQ : ∀ {state n t}, R n t → Q state n t)
    (hwrite : ∀ segment id, o = .append segment id → ∀ state active prior critical,
      Leads (fun w => Held u (InState state) false R R w ∧ Allowed u segment.byteLength critical w)
        (writeSegment u id segment active prior critical) (Held u (InState state) false (Q state) (Q state)))
    (hstart : ∀ sources startMs endMs, o.starts = some (sources, startMs, endMs) → ∀ state ids event,
      Leads (fun w => Held u (InState state) false R R w ∧ Allowed u 0 o.startsCritical w)
        (startRecordings u sources ids startMs endMs event o.startsCritical)
        (Held u (InState state) false (Q state) (Q state))) :
    Leads (Idle u false R R) (o.run u) (Leaving u Q) := by
  have hreturn : ∀ {β : Type} {p : StoreM β} (f : β → Answer), Keeps (Idle u false R R) p →
      Leads (Idle u false R R) (do return f (← p)) (Leaving u Q) :=
    fun _ hp => .bind (Idle.before_admission hRQ hp) fun _ => .pure fun _ hw => hw.conseq hRQ hRQ
  cases o with
  | append segment id => exact .bind (append_spec h hRQ (hwrite segment id rfl)) fun _ => .pure fun _ hw => hw
  | startEvent | startManual =>
    exact .bind (.bind (Idle.before_admission hRQ keeps_require) fun _ =>
      start_spec h hRQ fun state ids => hstart _ _ _ rfl state ids _) fun _ => .pure fun _ hw => hw
  | finish recording stopMs => exact hreturn _ (finish_idle h id id stopMs)
  | advance nowMs => exact hreturn (fun _ => .nothing) (advance_idle h id id nowMs)
  | releaseSource source => exact hreturn (fun _ => .nothing) (releaseSource_idle h id id source)
  | setStarred recording starred => exact hreturn (fun _ => .nothing) (setStarred_idle h id id starred)
  | deleteRecording recording ownerRequested =>
    exact hreturn _ (deleteRecording_idle h id (fun hc => hc.edits) ownerRequested)
  | manifest recording => exact hreturn _ (manifest_idle h id id)

/-- A step leaves what the run of its operation leaves. -/
theorem step_of_run {J : World → Prop} {act : Act} (hrun : Leads (Idle u false R R) (act.operation.run u) J)
    (hw : w.Unreserved) (htables : R 0 w.tables) (hsaved : ∀ t ∈ w.saved, R 0 t) :
    J (step u act w).2 ∧ (step u act w).1.log = (step u act w).2.log := by
  have hentering : Idle u false R R (w.entering act.turns) :=
    ⟨hw.frame rfl rfl, List.forall_mem_nil _, rfl, htables, hsaved⟩
  have h := hrun (w.entering act.turns) hentering
  unfold step
  rcases hr : act.operation.run u (w.entering act.turns) with ⟨r, w'⟩
  rw [hr] at h
  cases r with
  | ok answer | error failure => exact ⟨h, rfl⟩

theorem writeSegment_anything {active : List RecordingRow} {prior : Option Cursor} :
    Keeps (Held u K false anything anything) (writeSegment u id segment active prior critical) :=
  writeSegment_held closed_anything (fun ht => ht) (fun ht => ht) (fun _ => trivial)
    (keeps_transaction (fun ht => ht) (closed_anything.keeps_exec trivial))

theorem run_keeps (o : Operation) : Keeps (Idle u false anything anything) (o.run u) :=
  run_spec (Q := fun _ => anything) o (closed_anything.restrict fun _ => trivial) id
    (fun _ _ _ _ _ _ _ => Triple.strengthen writeSegment_anything fun _ hw => hw.1)
    fun _ _ _ _ _ _ _ => Triple.strengthen (startRecordings_held closed_anything id (fun _ => trivial) _ _ _ _ _ _)
      fun _ hw => hw.1

theorem step_keeps (act : Act) (hw : w.Unreserved) :
    (step u act w).2.Unreserved ∧ ∀ entry ∈ (step u act w).1.log, entry.Ok u := by
  obtain ⟨h, hlog⟩ := step_of_run (run_keeps act.operation) hw trivial fun _ _ => trivial
  rw [hlog]
  exact ⟨h.unreserved, h.calm.log⟩

/-- In every run, each operation ends without a reservation and its log is in order. -/
theorem reservations_balanced {init s : World} {h : List (Event World Act Output)} (hinit : init.Unreserved)
    (hs : Reaches (step u) init h s) :
    ∀ e ∈ h, e.after.Unreserved ∧ ∀ entry ∈ e.output.log, entry.Ok u := by
  have hreached : ∀ {h s}, Reaches (step u) init h s → s.Unreserved := fun hs =>
    hs.invariant (P := World.Unreserved) hinit fun act _ hw => (step_keeps act hw).1
  intro e he
  obtain ⟨earlier, hbefore, heq⟩ := hs.event_of_mem he
  rw [heq]
  exact step_keeps e.input (hreached hbefore)

def smallSetup : Setup where
  storage :=
    { recordingLimitBytes := 1000
      criticalAllowanceBytes := 100
      hardReserveBytes := 10
      pressureFreeBytes := 20
      recoveryFreeBytes := 30
      recoveryAllocationBytes := 500
      writeOverheadBytes := 5
      maxRequestBytes := 1000
      cleanupBatchSize := 2
      positive := by decide
      hysteresis := by decide }
  limits :=
    { preRollBytes := 10000
      maxSegmentBytes := 10000
      maxSegmentMs := 60000
      maxActiveRecordings := 4
      maxSpoolSegments := 10
      maxSegmentsPerRecording := 10 }

def World.resting (state : StorageState) (tables : Tables) : World where
  policy := { state := state }
  failed := false
  reservationActive := false
  tables := tables
  saved := none
  lastSample := none
  reclaiming := false
  turns := []
  log := []

/-- An old recording and its segment, which nearly fill the allocation. -/
def nearlyFull : Tables where
  segments := Table.empty.insert
    { id := 7, source := 1, stream := 1, sequence := 0, startMs := 0, endMs := 1000, byteLength := 900,
      state := .ready, integrity := .verified }
  recordings := Table.empty.insert
    { id := 3, source := 1, startMs := 0, targetEndMs := 1000, endedMs := some 1000, status := .complete }
  links := [⟨3, 7⟩]

/-- The environment raises nowhere and finds room. -/
def roomy : List Turn := List.replicate 200 { space := ⟨5000, 9000⟩ }

/-- A segment is appended during a manual recording; the second admission has to reclaim the old one. -/
def appending : List Act :=
  [⟨.startManual 1 2000 5000 fun _ => 4, roomy⟩,
    ⟨.append ⟨1, 1, 1, 2000, 3000, 200⟩ 8, roomy⟩,
    ⟨.finish 4 none, roomy⟩]

/-- The entry deletes the recording in a reclamation. -/
def Entry.reclaims (id : UUID) : Entry → Bool
  | .deletesRecording recording _ reclaiming => recording == id && reclaiming
  | _ => false

theorem reservations_balanced_appending :
    ((perform (step smallSetup) (.resting .normal nearlyFull) appending).1.any fun e =>
      e.output.log.any (Entry.reclaims 3)) = true ∧
    ∀ e ∈ (perform (step smallSetup) (.resting .normal nearlyFull) appending).1,
      e.after.Unreserved ∧ ∀ entry ∈ e.output.log, entry.Ok smallSetup :=
  ⟨by decide +kernel, reservations_balanced ⟨rfl, rfl, rfl, rfl⟩ (.perform _ _ _)⟩

end Sentinel.Recording
