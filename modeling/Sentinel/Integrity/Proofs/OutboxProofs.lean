import Sentinel.Integrity.Outbox

/-!
# Proofs: the integrity outbox

No warning is lost between `record` and the sink, the outbox keeps its bound, and accepting deliveries empty it.
-/

namespace Sentinel.Integrity.Outbox

variable {policy : Policy} {kind : Kind} {state : Integrity.State}

/-! ## Tables -/

/-- The overflow has a slot for the kind and the state. -/
def Tables.Overflows (t : Tables) (kind : Kind) (state : Integrity.State) : Prop :=
  ∃ slot ∈ t.overflow, slot.kind = kind ∧ slot.state = state

/-- Kinds and states of the overflow are keys, and identifiers are those of an automatic counter. -/
structure Tables.Keyed (t : Tables) : Prop where
  keys : t.overflow.Pairwise fun a b => ¬(a.kind = b.kind ∧ a.state = b.state)
  ids : t.rows.Pairwise fun a b => a.id < b.id
  fresh : ∀ row ∈ t.rows, row.id < t.nextId

/-- What holds between two calls. -/
structure Tables.Bounded (policy : Policy) (t : Tables) : Prop extends t.Keyed where
  bound : t.rows.length ≤ policy.maxPending
  full : t.overflow ≠ [] → t.rows.length = policy.maxPending
  blocked : t.blocked = true ↔ t.overflow ≠ []

namespace Tables

variable {t : Tables}

theorem Keyed.insertRow (h : t.Keyed) (time : String) (now : Bool) (findings : List Finding) :
    (t.insertRow time now findings).Keyed := by
  refine ⟨h.keys, ?_, ?_⟩
  · refine List.pairwise_append.mpr ⟨h.ids, List.pairwise_singleton _ _, fun a ha b hb => ?_⟩
    rw [List.mem_singleton.mp hb]
    exact h.fresh a ha
  · intro row hr
    obtain hr | hr := List.mem_append.mp hr
    · exact Nat.lt_succ_of_lt (h.fresh row hr)
    · rw [List.mem_singleton.mp hr]
      exact Nat.lt_succ_self _

/-! ## Recording -/

theorem insertSlot_rows (time : String) (finding : Finding) : (t.insertSlot time finding).rows = t.rows := by
  unfold insertSlot
  split <;> rfl

theorem insertSlot_overflows (time : String) (finding : Finding) :
    (t.insertSlot time finding).Overflows kind state ↔
      t.Overflows kind state ∨ finding.kind = kind ∧ finding.state = state := by
  unfold insertSlot
  split
  · rename_i hany
    refine ⟨.inl, fun h => h.elim id ?_⟩
    rintro ⟨rfl, rfl⟩
    obtain ⟨slot, hs, hk⟩ := List.any_eq_true.mp hany
    exact ⟨slot, hs, of_decide_eq_true hk⟩
  · constructor
    · rintro ⟨slot, hs, hk⟩
      obtain hs | hs := List.mem_append.mp hs
      · exact .inl ⟨slot, hs, hk⟩
      · rw [List.mem_singleton.mp hs] at hk
        exact .inr hk
    · rintro (⟨slot, hs, hk⟩ | hk)
      · exact ⟨slot, List.mem_append_left _ hs, hk⟩
      · exact ⟨_, List.mem_append_right _ (List.mem_singleton_self _), hk⟩

theorem Keyed.insertSlot (h : t.Keyed) (time : String) (finding : Finding) : (t.insertSlot time finding).Keyed := by
  unfold Tables.insertSlot
  split
  · exact h
  · rename_i hany
    refine ⟨List.pairwise_append.mpr ⟨h.keys, List.pairwise_singleton _ _, fun a ha b hb hk => ?_⟩, h.ids, h.fresh⟩
    rw [List.mem_singleton.mp hb] at hk
    exact hany (List.any_eq_true.mpr ⟨a, ha, decide_eq_true hk⟩)

/-- What the loop over the findings of a full outbox leaves. -/
structure Overflowed (findings : List Finding) (t t' : Tables) : Prop where
  keyed : t.Keyed → t'.Keyed
  rows : t'.rows = t.rows
  overflows : ∀ kind state, t'.Overflows kind state ↔
    t.Overflows kind state ∨ ∃ finding ∈ findings, finding.kind = kind ∧ finding.state = state

theorem insertSlots_overflowed (time : String) (findings : List Finding) (t : Tables) :
    Overflowed findings t (findings.foldl (insertSlot · time ·) t) := by
  induction findings generalizing t with
  | nil => exact ⟨id, rfl, fun _ _ => by simp⟩
  | cons finding findings ih =>
    have h := ih (t.insertSlot time finding)
    refine ⟨fun hk => h.keyed (hk.insertSlot time finding), h.rows.trans (insertSlot_rows time finding), ?_⟩
    intro kind state
    rw [List.foldl_cons, h.overflows, insertSlot_overflows, or_assoc, List.exists_mem_cons_iff]

/-- A warning is among the findings. -/
def Warns (findings : List Finding) : Prop := ∃ finding ∈ findings, finding.state ≠ .ok

/-- The status says whether the overflow is empty; nothing else changes. -/
structure Reports (t t' : Tables) : Prop where
  rows : t'.rows = t.rows
  overflow : t'.overflow = t.overflow
  nextId : t'.nextId = t.nextId
  blocked : t'.blocked = !t.overflow.isEmpty

variable {t' : Tables}

theorem Reports.bounded (h : Reports t t') (hk : t.Keyed) (hbound : t.rows.length ≤ policy.maxPending)
    (hfull : t.overflow ≠ [] → t.rows.length = policy.maxPending) : t'.Bounded policy := by
  obtain ⟨hr, ho, hn, hb⟩ := h
  refine ⟨⟨ho ▸ hk.keys, hr ▸ hk.ids, hr ▸ hn ▸ hk.fresh⟩, hr ▸ hbound, ho ▸ hr ▸ hfull, ?_⟩
  rw [hb, ho]
  simp

theorem Reports.holds (h : Reports t t') : t'.Holds kind state ↔ t.Holds kind state := by
  unfold Holds
  rw [h.rows, h.overflow]

/-- What `record` does. -/
inductive RecordSpec (policy : Policy) (findings : List Finding) (t : Tables) : Bool × Tables → Prop
  | silent {t' : Tables} (hw : ¬Warns findings) (h' : Reports t t') : RecordSpec policy findings t (false, t')
  | queued {t' : Tables} (now : Bool) (time : String) (hw : Warns findings) (hroom : t.rows.length < policy.maxPending)
      (h' : Reports (t.insertRow time now findings) t') : RecordSpec policy findings t (false, t')
  | overflowed {t₁ t' : Tables} (hw : Warns findings) (hfull : policy.maxPending ≤ t.rows.length)
      (h₁ : Overflowed (findings.filter fun finding => finding.state ≠ .ok) t t₁) (h' : Reports t₁ t') :
      RecordSpec policy findings t (true, t')

theorem record_spec (policy : Policy) (findings : List Finding) (time : String) (t : Tables) :
    RecordSpec policy findings t (t.record policy findings time) := by
  unfold record
  by_cases hw : Warns findings
  · have hany : (findings.any fun finding => decide (finding.state ≠ .ok)) = true := by
      obtain ⟨finding, hf, hs⟩ := hw
      exact List.any_eq_true.mpr ⟨finding, hf, decide_eq_true hs⟩
    by_cases hfull : policy.maxPending ≤ t.rows.length
    · simp only [hany, hfull, decide_true, Bool.and_self, if_true, Bool.not_true, Bool.and_false]
      exact .overflowed hw hfull (insertSlots_overflowed time _ t) ⟨rfl, rfl, rfl, rfl⟩
    · simp only [hany, hfull, decide_false, Bool.and_false, Bool.not_false, Bool.and_self]
      exact .queued _ time hw (not_le.mp hfull) ⟨rfl, rfl, rfl, rfl⟩
  · have hany : (findings.any fun finding => decide (finding.state ≠ .ok)) = false := by
      rw [List.any_eq_false]
      intro finding hf hs
      exact hw ⟨finding, hf, of_decide_eq_true hs⟩
    simp only [hany, Bool.false_and]
    exact .silent hw ⟨rfl, rfl, rfl, rfl⟩

namespace RecordSpec

variable {findings : List Finding} {r : Bool × Tables}

theorem bounded (hspec : RecordSpec policy findings t r) (h : t.Bounded policy) : r.2.Bounded policy := by
  cases hspec with
  | silent _ h' => exact h'.bounded h.toKeyed h.bound h.full
  | queued now time _ hroom h' =>
    refine h'.bounded (h.toKeyed.insertRow time now findings) ?_ fun hne => absurd (h.full hne) hroom.ne
    rw [Tables.insertRow, List.length_append]
    exact hroom
  | overflowed _ hfull h₁ h' =>
    rw [← h₁.rows] at hfull
    have hbound := h₁.rows ▸ h.bound
    exact h'.bounded (h₁.keyed h.toKeyed) hbound fun _ => le_antisymm hbound hfull

theorem holds (hspec : RecordSpec policy findings t r) (h : t.Holds kind state) : r.2.Holds kind state := by
  cases hspec with
  | silent _ h' => exact h'.holds.2 h
  | queued now time _ _ h' =>
    exact h'.holds.2 (h.imp_left fun ⟨row, hm, hnames⟩ => ⟨row, List.mem_append_left _ hm, hnames⟩)
  | overflowed _ _ h₁ h' =>
    refine h'.holds.2 ?_
    unfold Holds
    rw [h₁.rows]
    exact h.imp_right fun h => (h₁.overflows kind state).mpr (.inl h)

theorem holds_new {finding : Finding} (hspec : RecordSpec policy findings t r) (hf : finding ∈ findings)
    (hs : finding.state ≠ .ok) : r.2.Holds finding.kind finding.state := by
  cases hspec with
  | silent hw => exact absurd ⟨finding, hf, hs⟩ hw
  | queued now time _ _ h' =>
    exact h'.holds.2 (.inl ⟨_, List.mem_append_right _ (List.mem_singleton_self _), finding, hf, rfl, rfl⟩)
  | overflowed _ _ h₁ h' =>
    refine h'.holds.2 (.inr ((h₁.overflows _ _).mpr (.inr ⟨finding, ?_, rfl, rfl⟩)))
    exact List.mem_filter.mpr ⟨hf, decide_eq_true hs⟩

end RecordSpec

/-! ## Promoting -/

theorem promoteSlot_holds (slot : Slot) (h : t.Holds kind state) : (t.promoteSlot slot).Holds kind state := by
  obtain ⟨row, hr, hn⟩ | ⟨other, ho, hk, hs⟩ := h
  · exact .inl ⟨row, List.mem_append_left _ hr, hn⟩
  · by_cases hsame : other.kind = slot.kind ∧ other.state = slot.state
    · refine .inl ⟨_, List.mem_append_right _ (List.mem_singleton_self _), _, List.mem_singleton_self _, ?_⟩
      exact ⟨hsame.1.symm.trans hk, hsame.2.symm.trans hs⟩
    · exact .inr ⟨other, List.mem_filter.mpr ⟨ho, decide_eq_true hsame⟩, hk, hs⟩

theorem promoteSlot_rows (t : Tables) (slot : Slot) : ∃ row, (t.promoteSlot slot).rows = t.rows ++ [row] := ⟨_, rfl⟩

theorem Keyed.promoteSlot (h : t.Keyed) (slot : Slot) : (t.promoteSlot slot).Keyed := by
  have hrow := h.insertRow slot.time (immediate ⟨slot.kind, slot.state, "COALESCED_PENDING_WARNING"⟩)
    [⟨slot.kind, slot.state, "COALESCED_PENDING_WARNING"⟩]
  exact ⟨h.keys.filter _, hrow.ids, hrow.fresh⟩

theorem Keyed.promoteSlot_overflow (h : t.Keyed) {slot : Slot} (hs : slot ∈ t.overflow) :
    (t.promoteSlot slot).overflow = t.overflow.erase slot := by
  show t.overflow.filter _ = _
  have hkeys := h.keys
  revert hs
  generalize t.overflow = l at hkeys
  intro hs
  induction l with
  | nil => cases hs
  | cons a l ih =>
    obtain ⟨ha, hkeys⟩ := List.pairwise_cons.mp hkeys
    by_cases hsame : a = slot
    · subst hsame
      rw [List.erase_cons_head, List.filter_cons_of_neg (by simp), List.filter_eq_self]
      exact fun b hb => decide_eq_true fun hk => ha b hb ⟨hk.1.symm, hk.2.symm⟩
    · have hmem : slot ∈ l := (List.mem_cons.mp hs).resolve_left (Ne.symm hsame)
      rw [List.filter_cons, if_pos (decide_eq_true (ha slot hmem)), List.erase_cons_tail (by simpa using hsame),
        ih hkeys hmem]

/-- What promoting slots of the overflow leaves. -/
structure Promoted (slots : List Slot) (t t' : Tables) : Prop where
  keyed : t'.Keyed
  rows : ∃ more, t'.rows = t.rows ++ more ∧ more.length = slots.length
  overflow : t'.overflow.length + slots.length = t.overflow.length
  holds : ∀ kind state, t.Holds kind state → t'.Holds kind state
  status : t'.status = t.status

theorem promoteSlots_promoted {slots : List Slot} (hk : t.Keyed) (hn : slots.Nodup) (hs : ∀ slot ∈ slots, slot ∈ t.overflow) :
    Promoted slots t (slots.foldl promoteSlot t) := by
  induction slots generalizing t with
  | nil => exact ⟨hk, ⟨[], (List.append_nil _).symm, rfl⟩, rfl, fun _ _ h => h, rfl⟩
  | cons slot slots ih =>
    obtain ⟨hslot, hn⟩ := List.nodup_cons.mp hn
    have hmem := hs slot List.mem_cons_self
    have hover := hk.promoteSlot_overflow hmem
    have hrest : ∀ other ∈ slots, other ∈ (t.promoteSlot slot).overflow := by
      intro other ho
      have hne : other ≠ slot := fun he => hslot (he ▸ ho)
      rw [hover, List.mem_erase_of_ne hne]
      exact hs other (List.mem_cons_of_mem _ ho)
    have h := ih (hk.promoteSlot slot) hn hrest
    refine ⟨h.keyed, ?_, ?_, fun kind state hh => h.holds kind state (promoteSlot_holds slot hh), h.status⟩
    · obtain ⟨more, hrows, hlen⟩ := h.rows
      obtain ⟨row, hrow⟩ := t.promoteSlot_rows slot
      refine ⟨row :: more, ?_, congrArg (· + 1) hlen⟩
      rw [List.foldl_cons, hrows, hrow, List.append_assoc, List.singleton_append]
    · have hlen := List.length_erase_of_mem hmem
      have hpos := List.length_pos_of_mem hmem
      have hsum := h.overflow
      rw [hover, hlen] at hsum
      rw [List.foldl_cons, List.length_cons]
      omega

/-- How many slots there is room for. -/
def room (policy : Policy) (t : Tables) : Nat := min (policy.maxPending - t.rows.length) t.overflow.length

theorem promoteOverflow_promoted (policy : Policy) (hk : t.Keyed) :
    ∃ slots : List Slot, slots.length = room policy t ∧ ∃ t₁, Promoted slots t t₁ ∧
      t.promoteOverflow policy =
        { t₁ with status := t₁.status.map fun status => { status with deliveryBlocked := !t₁.overflow.isEmpty } } := by
  refine ⟨(t.overflow.insertionSort Slot.upTo).take (policy.maxPending - t.rows.length), ?_, _,
    promoteSlots_promoted hk ?_ ?_, rfl⟩
  · rw [List.length_take, List.length_insertionSort]
    rfl
  · have hnodup : t.overflow.Nodup := by
      refine hk.keys.imp fun {a b} h he => h ?_
      rw [he]
      exact ⟨rfl, rfl⟩
    exact (((List.perm_insertionSort _ _).nodup_iff.mpr hnodup).sublist (List.take_sublist ..))
  · intro slot hs
    exact (List.mem_insertionSort _).mp (List.mem_of_mem_take hs)

/-! ## Acknowledging -/

def delete (row : Row) (t : Tables) : Tables := { t with rows := t.rows.filter fun other => other.id ≠ row.id }

theorem Keyed.ids_nodup (h : t.Keyed) : (t.rows.map Row.id).Nodup :=
  List.pairwise_map.mpr (h.ids.imp fun hlt => hlt.ne)

theorem Keyed.eq_of_id (h : t.Keyed) {a b : Row} (ha : a ∈ t.rows) (hb : b ∈ t.rows) (he : a.id = b.id) : a = b :=
  List.inj_on_of_nodup_map h.ids_nodup ha hb he

theorem Keyed.delete (h : t.Keyed) (row : Row) : (t.delete row).Keyed :=
  ⟨h.keys, h.ids.filter _, fun r hr => h.fresh r (List.mem_of_mem_filter hr)⟩

theorem Keyed.delete_length (h : t.Keyed) {row : Row} (hr : row ∈ t.rows) :
    (t.delete row).rows.length + 1 = t.rows.length := by
  have hfilter : (t.delete row).rows = t.rows.erase row := by
    rw [(List.Nodup.of_map _ h.ids_nodup).erase_eq_filter]
    refine List.filter_congr fun other ho => ?_
    rw [Bool.eq_iff_iff, decide_eq_true_iff, bne_iff_ne]
    exact not_congr ⟨h.eq_of_id ho hr, fun he => he ▸ rfl⟩
  rw [hfilter, List.length_erase_of_mem hr]
  exact Nat.sub_add_cancel (List.length_pos_of_mem hr)

/-- What an acknowledged row leaves. -/
structure Acknowledged (policy : Policy) (row : Row) (t t' : Tables) : Prop where
  bounded : t'.Bounded policy
  rows : ∀ other ∈ t.rows, other.id ≠ row.id → other ∈ t'.rows
  size : t'.rows.length + t'.overflow.length + 1 = t.rows.length + t.overflow.length
  holds : ∀ kind state, t.Holds kind state → row.names kind state ∨ t'.Holds kind state

theorem acknowledge_acknowledged (h : t.Bounded policy) {row : Row} (hr : row ∈ t.rows) :
    Acknowledged policy row t (t.acknowledge policy row) := by
  have hlen := h.delete_length hr
  obtain ⟨slots, hslots, t₁, hp, he⟩ := promoteOverflow_promoted policy (h.toKeyed.delete row)
  have hack : t.acknowledge policy row =
    { t₁ with status := t₁.status.map fun status => { status with deliveryBlocked := !t₁.overflow.isEmpty } } := he
  obtain ⟨more, hrows, hmore⟩ := hp.rows
  have hrowsLen : t₁.rows.length = (t.delete row).rows.length + slots.length := by
    rw [hrows, List.length_append, hmore]
  have hoverLen : t₁.overflow.length + slots.length = t.overflow.length := hp.overflow
  have hroom : slots.length = min (policy.maxPending - (t.delete row).rows.length) t.overflow.length := hslots
  have hbound := h.bound
  rw [hack]
  refine ⟨⟨⟨hp.keyed.keys, hp.keyed.ids, hp.keyed.fresh⟩, ?_, fun hne => ?_, ?_⟩, fun other ho hid => ?_, ?_,
    fun kind state hh => ?_⟩
  · show t₁.rows.length ≤ policy.maxPending
    omega
  · have hpos : 0 < t₁.overflow.length := List.length_pos_iff.mpr hne
    show t₁.rows.length = policy.maxPending
    omega
  · show (t₁.status.map _).any _ = true ↔ t₁.overflow ≠ []
    have hstatus : t₁.status = t.status := hp.status
    rw [hstatus]
    cases hst : t.status with
    | none =>
      -- Nothing was ever recorded, so nothing overflows.
      have hempty : t.overflow = [] := by
        by_contra hne
        have hb := h.blocked.mpr hne
        unfold Tables.blocked at hb
        rw [hst] at hb
        cases hb
      rw [hempty, List.length_nil] at hoverLen
      have hnil : t₁.overflow = [] := List.length_eq_zero_iff.mp (by omega)
      rw [hnil]
      exact ⟨nofun, fun hne => absurd rfl hne⟩
    | some status => simp
  · show other ∈ t₁.rows
    rw [hrows]
    exact List.mem_append_left _ (List.mem_filter.mpr ⟨ho, decide_eq_true hid⟩)
  · show t₁.rows.length + t₁.overflow.length + 1 = _
    omega
  · have hdelete : row.names kind state ∨ (t.delete row).Holds kind state := by
      obtain ⟨other, ho, hn⟩ | ho := hh
      · by_cases hid : other.id = row.id
        · exact .inl (h.toKeyed.eq_of_id ho hr hid ▸ hn)
        · exact .inr (.inl ⟨other, List.mem_filter.mpr ⟨ho, decide_eq_true hid⟩, hn⟩)
      · exact .inr (.inr ho)
    exact hdelete.imp_right (hp.holds kind state)

end Tables

/-! ## Runs -/

/-- The rows that `deliver` has selected and not acknowledged. -/
def Phase.rows : Phase → List Row
  | .idle => []
  | .offering row rest => row :: rest
  | .accepted row rest => row :: rest

theorem Phase.next_rows (rows : List Row) : (Phase.next rows).rows = rows := by
  cases rows with
  | nil | cons row rest => rfl

theorem Phase.next_ne_accepted (rows : List Row) (row : Row) (rest : List Row) :
    Phase.next rows ≠ .accepted row rest := by
  cases rows with
  | nil | cons row rest => exact nofun

/-- What holds in every state of a run. -/
structure Wf (policy : Policy) (s : State) : Prop where
  bounded : s.tables.Bounded policy
  selected : ∀ row ∈ s.phase.rows, row ∈ s.tables.rows
  distinct : s.phase.rows.Pairwise fun a b => a.id < b.id

theorem wf_init : Wf policy {} := by
  refine ⟨⟨⟨.nil, .nil, nofun⟩, Nat.zero_le _, fun h => absurd rfl h, ?_⟩, nofun, .nil⟩
  exact ⟨nofun, fun h => absurd rfl h⟩

/-- What a step can do. -/
inductive StepSpec (policy : Policy) (s : State) : Input → Output → State → Prop
  /-- Nothing happens to the tables, and the call ends or goes on waiting. -/
  | same {i : Input} {o : Output} {phase : Phase} (hphase : phase = s.phase ∨ phase = .idle)
      (ho : ∀ row, o ≠ .accepted row) (hr : ∀ blocked, o ≠ .recorded blocked) :
      StepSpec policy s i o ⟨s.tables, phase⟩
  | recorded (findings : List Finding) (time : String) (hp : s.phase = .idle) :
      StepSpec policy s (.record findings time true) (.recorded (s.tables.record policy findings time).1)
        ⟨(s.tables.record policy findings time).2, .idle⟩
  | selected {o : Output} (hp : s.phase = .idle) (ho : ∀ row, o ≠ .accepted row) (hr : ∀ blocked, o ≠ .recorded blocked) :
      StepSpec policy s .deliver o ⟨s.tables, .next (s.tables.rows.take 100)⟩
  | accepted {row : Row} {rest : List Row} (hp : s.phase = .offering row rest) :
      StepSpec policy s .accept (.accepted row) ⟨s.tables, .accepted row rest⟩
  | acknowledged {o : Output} {row : Row} {rest : List Row} (hp : s.phase = .accepted row rest)
      (ho : ∀ row, o ≠ .accepted row) (hr : ∀ blocked, o ≠ .recorded blocked) :
      StepSpec policy s (.acknowledge true) o ⟨s.tables.acknowledge policy row, .next rest⟩

theorem returned_or_none (complete : Bool) :
    (∀ row, (if complete then Output.returned true else .none) ≠ .accepted row) ∧
      ∀ blocked, (if complete then Output.returned true else .none) ≠ .recorded blocked := by
  cases complete with
  | true | false => exact ⟨nofun, nofun⟩

theorem step_spec (policy : Policy) (i : Input) (s : State) :
    StepSpec policy s i (step policy i s).1 (step policy i s).2 := by
  obtain ⟨tables, phase⟩ := s
  have hwait : ∀ {i : Input}, StepSpec policy ⟨tables, phase⟩ i .none ⟨tables, phase⟩ := .same (.inl rfl) nofun nofun
  cases i with
  | record findings time commits =>
    cases phase with
    | idle =>
      cases commits with
      | true => exact .recorded findings time rfl
      | false => exact .same (.inl rfl) nofun nofun
    | offering row rest | accepted row rest => exact hwait
  | deliver =>
    cases phase with
    | idle => exact .selected rfl (returned_or_none _).1 (returned_or_none _).2
    | offering row rest | accepted row rest => exact hwait
  | accept =>
    cases phase with
    | idle => exact hwait
    | offering row rest => exact .accepted rfl
    | accepted row rest => exact hwait
  | refuse =>
    cases phase with
    | idle => exact hwait
    | offering row rest => exact .same (.inr rfl) nofun nofun
    | accepted row rest => exact hwait
  | acknowledge commits =>
    cases phase with
    | idle | offering row rest => exact hwait
    | accepted row rest =>
      cases commits with
      | true => exact .acknowledged rfl (returned_or_none _).1 (returned_or_none _).2
      | false => exact .same (.inr rfl) nofun nofun
  | crash => exact .same (.inr rfl) nofun nofun

variable {s s' : State} {i : Input} {o : Output}

theorem StepSpec.wf (hspec : StepSpec policy s i o s') (h : Wf policy s) : Wf policy s' := by
  cases hspec with
  | same hphase ho hr =>
    obtain rfl | rfl := hphase
    · exact h
    · exact ⟨h.bounded, nofun, .nil⟩
  | recorded findings time hp => exact ⟨(Tables.record_spec ..).bounded h.bounded, nofun, .nil⟩
  | selected hp ho hr =>
    refine ⟨h.bounded, ?_, ?_⟩
    · rw [Phase.next_rows]
      exact fun row hr => List.mem_of_mem_take hr
    · rw [Phase.next_rows]
      exact h.bounded.ids.sublist (List.take_sublist ..)
  | accepted hp =>
    have hselected := h.selected
    have hdistinct := h.distinct
    rw [hp] at hselected hdistinct
    exact ⟨h.bounded, hselected, hdistinct⟩
  | acknowledged hp ho hr =>
    rename_i row rest
    have hselected := h.selected
    have hdistinct := h.distinct
    rw [hp] at hselected hdistinct
    have hack := Tables.acknowledge_acknowledged h.bounded (hselected row List.mem_cons_self)
    obtain ⟨hlt, hrest⟩ := List.pairwise_cons.mp hdistinct
    refine ⟨hack.bounded, ?_, ?_⟩
    · rw [Phase.next_rows]
      exact fun other ho => hack.rows other (hselected other (List.mem_cons_of_mem _ ho)) (hlt other ho).ne'
    · rw [Phase.next_rows]
      exact hrest

theorem wf {h : List (Event State Input Output)} (hs : Reaches (step policy) {} h s) : Wf policy s :=
  hs.invariant wf_init fun i _ => (step_spec policy i _).wf

/-! ## No warning is lost -/

/-- The warning is held, and no acknowledgement that would drop it is pending. -/
structure Held (kind : Kind) (state : Integrity.State) (s : State) : Prop where
  holds : s.tables.Holds kind state
  pending : ∀ row rest, s.phase = .accepted row rest → ¬row.names kind state

/-- A step keeps the warning unless it is the acceptance of an event with it. -/
theorem StepSpec.held (hspec : StepSpec policy s i o s') (hw : Wf policy s) (h : Held kind state s) :
    accepts kind state ⟨s, i, o, s'⟩ ∨ Held kind state s' := by
  cases hspec with
  | same hphase ho hr =>
    obtain rfl | rfl := hphase
    · exact .inr h
    · exact .inr ⟨h.holds, nofun⟩
  | recorded findings time hp => exact .inr ⟨(Tables.record_spec ..).holds h.holds, nofun⟩
  | selected hp ho hr => exact .inr ⟨h.holds, fun row rest he => absurd he (Phase.next_ne_accepted _ row rest)⟩
  | accepted hp =>
    rename_i row rest
    by_cases hn : row.names kind state
    · exact .inl ⟨row, rfl, hn⟩
    · refine .inr ⟨h.holds, fun row' rest' he => ?_⟩
      obtain ⟨rfl, rfl⟩ := Phase.accepted.inj he
      exact hn
  | acknowledged hp ho hr =>
    rename_i row rest
    have hmem : row ∈ s.tables.rows := hw.selected row (hp ▸ List.mem_cons_self)
    have hack := Tables.acknowledge_acknowledged hw.bounded hmem
    refine .inr ⟨(hack.holds kind state h.holds).resolve_left (h.pending row rest hp), fun row' rest' he => ?_⟩
    exact absurd he (Phase.next_ne_accepted _ row' rest')

theorem StepSpec.commits (hspec : StepSpec policy s i o s') (hok : state ≠ .ok) (h : commits kind state ⟨s, i, o, s'⟩) :
    Held kind state s' := by
  obtain ⟨findings, time, blocked, hi, ho, finding, hf, rfl, rfl⟩ := h
  cases hi
  cases ho
  cases hspec with
  | same hphase ho hr => exact absurd rfl (hr blocked)
  | recorded _ _ hp => exact ⟨(Tables.record_spec ..).holds_new hf hok, nofun⟩

/-- Every committed warning is held until the sink accepts an event with it. -/
theorem accepted_or_held {later earlier : List (Event State Input Output)} {e : Event State Input Output}
    (hs : Reaches (step policy) {} (later ++ e :: earlier) s) (hok : state ≠ .ok) (he : commits kind state e) :
    (∃ e' ∈ later, accepts kind state e') ∨ Held kind state s := by
  induction later generalizing s with
  | nil =>
    cases hs with
    | next hs i => exact .inr ((step_spec policy i _).commits hok he)
  | cons e' later ih =>
    cases hs with
    | next hs i =>
      obtain ⟨e', hm, ha⟩ | hheld := ih hs
      · exact .inl ⟨e', List.mem_cons_of_mem _ hm, ha⟩
      · exact ((step_spec policy i _).held (wf hs) hheld).imp_left fun ha => ⟨_, List.mem_cons_self, ha⟩

/-! ## Accepting deliveries -/

/-- What is left to deliver. -/
def State.size (s : State) : Nat := s.tables.rows.length + s.tables.overflow.length

theorem offers_accepted {rest : List Row} (hw : Wf policy s) (hp : s.phase = .next rest) :
    let s' := (rest.flatMap fun _ => [Input.accept, .acknowledge true]).foldl (fun s i => (step policy i s).2) s
    Wf policy s' ∧ s'.phase = .idle ∧ s'.size + rest.length = s.size := by
  induction rest generalizing s with
  | nil => exact ⟨hw, hp, rfl⟩
  | cons row rest ih =>
    have hoffer : (step policy .accept s).2 = ⟨s.tables, .accepted row rest⟩ := by
      obtain ⟨tables, phase⟩ := s
      obtain rfl : phase = .next (row :: rest) := hp
      rfl
    have hack : (step policy (.acknowledge true) (step policy .accept s).2).2 =
        ⟨s.tables.acknowledge policy row, .next rest⟩ := by
      rw [hoffer]
      rfl
    have hmem : row ∈ s.tables.rows := hw.selected row (hp ▸ List.mem_cons_self)
    have hsize : State.size ⟨s.tables.acknowledge policy row, .next rest⟩ + 1 = s.size :=
      (Tables.acknowledge_acknowledged hw.bounded hmem).size
    have hw' := (step_spec policy (.acknowledge true) _).wf ((step_spec policy .accept s).wf hw)
    rw [hack] at hw'
    obtain ⟨hwf, hphase, hrest⟩ := ih hw' rfl
    simp only [List.flatMap_cons, List.cons_append, List.nil_append, List.foldl_cons, hack]
    refine ⟨hwf, hphase, ?_⟩
    rw [List.length_cons]
    omega

theorem delivered_spec (hw : Wf policy s) (hp : s.phase = .idle) :
    Wf policy (delivered policy s) ∧ (delivered policy s).phase = .idle ∧
      (delivered policy s).size + min 100 s.tables.rows.length = s.size := by
  have hselect : (step policy .deliver s).2 = ⟨s.tables, .next (s.tables.rows.take 100)⟩ := by
    obtain ⟨tables, phase⟩ := s
    obtain rfl : phase = .idle := hp
    rfl
  have hw' := (step_spec policy .deliver s).wf hw
  rw [hselect] at hw'
  have h := offers_accepted hw' rfl
  unfold delivered accepting
  rw [List.foldl_cons, hselect]
  rwa [List.length_take] at h

theorem delivered_iterate (hw : Wf policy s) (hp : s.phase = .idle) (n : Nat) (hn : s.size ≤ n) :
    ((delivered policy)^[n] s).tables.rows = [] ∧ ((delivered policy)^[n] s).tables.overflow = [] := by
  have hzero : ∀ {s : State}, s.size = 0 → s.tables.rows = [] ∧ s.tables.overflow = [] := fun {s} h => by
    unfold State.size at h
    exact ⟨List.length_eq_zero_iff.mp (by omega), List.length_eq_zero_iff.mp (by omega)⟩
  induction n generalizing s with
  | zero => exact hzero (Nat.le_zero.mp hn)
  | succ n ih =>
    obtain ⟨hw', hp', hsize⟩ := delivered_spec hw hp
    rw [Function.iterate_succ_apply]
    refine ih hw' hp' ?_
    -- A call delivers a row, since only a full outbox overflows.
    by_cases hrows : s.tables.rows.length = 0
    · have hover : s.tables.overflow = [] := by
        by_contra hne
        have hfull := hw.bounded.full hne
        have hpos := policy.positive
        omega
      unfold State.size at hn hsize ⊢
      rw [hover] at hsize
      simp only [List.length_nil] at hsize
      omega
    · omega

/-! ## Main result -/

/-- In every run a committed warning is in an undelivered row or in the overflow until the sink accepts an event with it;
the outbox keeps its bound, it overflows only when it is full, and the status row says so; and accepting deliveries empty
both tables. -/
theorem outbox_lossless (policy : Policy) {h : List (Event State Input Output)} {s : State}
    (hs : Reaches (step policy) {} h s) :
    (∀ later e earlier, h = later ++ e :: earlier → ∀ kind state, state ≠ .ok → commits kind state e →
      (∃ e' ∈ later, accepts kind state e') ∨ s.tables.Holds kind state) ∧
    s.tables.rows.length ≤ policy.maxPending ∧
    (s.tables.blocked = true ↔ s.tables.overflow ≠ []) ∧
    (s.tables.overflow ≠ [] → s.tables.rows.length = policy.maxPending) ∧
    (s.phase = .idle → ∃ n, ∀ k ≥ n, ((delivered policy)^[k] s).tables.rows = [] ∧
      ((delivered policy)^[k] s).tables.overflow = []) := by
  have hw := wf hs
  refine ⟨?_, hw.bounded.bound, hw.bounded.blocked, hw.bounded.full, fun hp => ⟨s.size, delivered_iterate hw hp⟩⟩
  rintro later e earlier rfl kind state hok he
  exact (accepted_or_held hs hok he).imp_right Held.holds

/-- A full outbox takes a second warning, the sink accepts the first event, and the second one takes its place. -/
def overflowing : List Input :=
  [.record [⟨.memory, .missing, "APPROVED_COMPONENT_ABSENT"⟩] "T1" true,
    .record [⟨.gpu, .newDevice, "UNAPPROVED_COMPONENT"⟩] "T2" true,
    .deliver, .accept, .crash, .deliver, .accept, .acknowledge true]

theorem outbox_lossless_overflowing :
    (perform (step ⟨1, le_rfl⟩) {} overflowing).2.tables.rows =
      [⟨2, "T2", false, [⟨.gpu, .newDevice, "COALESCED_PENDING_WARNING"⟩]⟩] ∧
    ∃ n, ∀ k ≥ n, ((delivered ⟨1, le_rfl⟩)^[k] (perform (step ⟨1, le_rfl⟩) {} overflowing).2).tables.rows = [] ∧
      ((delivered ⟨1, le_rfl⟩)^[k] (perform (step ⟨1, le_rfl⟩) {} overflowing).2).tables.overflow = [] :=
  ⟨by decide +kernel, (outbox_lossless ⟨1, le_rfl⟩ (.perform _ _ overflowing)).2.2.2.2 rfl⟩

end Sentinel.Integrity.Outbox
