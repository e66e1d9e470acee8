import Sentinel.Recording.Proofs.ReservationProofs

/-!
# Admission and free space

More free space never makes the policy more severe, with one exception: a stopped policy that finds free space above the
pressure threshold but below the recovery threshold stays stopped, while below the pressure threshold it goes over to
pressure and admits the requests that meet the terms of the pressure. The exception is exact. `_state_for` is taken as `admit`
runs it, under a reservation: without one the audit of a transition reads the free space again.
-/

namespace Sentinel.Recording

open Program

variable {u : Setup} {p : Policy} {space space' : Space} {used : Nat}

def StorageState.severity : StorageState → Nat
  | .normal => 0
  | .pressure => 1
  | .hardStop => 2

/-- What `_state_for` makes of the state. -/
def Policy.classify (u : Setup) (p : Policy) (space : Space) (used : Nat) : StorageState :=
  if space.available - p.reservedTotal < u.storage.hardReserveBytes then .hardStop
  else if p.cleanupFailed = true ∨ p.within u space used 0 0 false = false then .pressure
  else if p.state ≠ .normal ∧ p.within u space used 0 0 true = true then .normal
  else p.state

/-- A stopped policy stays stopped although the entry thresholds are met. -/
def Policy.Latched (u : Setup) (p : Policy) (space : Space) (used : Nat) : Prop :=
  p.state = .hardStop ∧ p.cleanupFailed = false ∧ p.within u space used 0 0 false = true ∧
    p.within u space used 0 0 true = false

/-- The terms on which a request is admitted under pressure. -/
def PressureTerms (u : Setup) (cleanupFailed : Bool) (reading : Reading) (total : Int) (media : Nat) (critical : Bool) : Prop :=
  critical = true ∧ cleanupFailed = false ∧ reading.critical + total ≤ u.storage.criticalAllowanceBytes ∧
    (reading.used + media : Int) ≤ u.storage.recordingLimitBytes + u.storage.criticalAllowanceBytes

/-- What `admit` asks of the state it finds. -/
def Accepts (u : Setup) (cleanupFailed : Bool) (reading : Reading) (total : Int) (media : Nat) (critical : Bool)
    (state : StorageState) : Prop :=
  state ≠ .hardStop ∧ (state = .pressure → PressureTerms u cleanupFailed reading total media critical)

/-- The policy once `admit` reserved the request. -/
def Policy.reserve (u : Setup) (p : Policy) (media : Nat) : Policy :=
  { p with reservation := true, reservedMedia := media, reservedTotal := media + u.storage.writeOverheadBytes }

/-! ## The classification -/

theorem within_mono (h : space.available ≤ space'.available) (recovering : Bool)
    (hw : p.within u space used 0 0 recovering = true) : p.within u space' used 0 0 recovering = true := by
  unfold Policy.within at hw ⊢
  cases recovering with
  | true =>
    simp only [if_true, Bool.and_eq_true, decide_eq_true_eq] at hw ⊢
    exact ⟨by omega, hw.2⟩
  | false =>
    simp only [Bool.false_eq_true, if_false, Bool.and_eq_true, decide_eq_true_eq] at hw ⊢
    exact ⟨by omega, hw.2⟩

theorem severity_le (state : StorageState) : state.severity ≤ StorageState.hardStop.severity := by
  cases state <;> decide

/-- More free space is never classified as more severe, unless it leaves a stopped policy latched. -/
theorem severity_classify_le (h : space.available ≤ space'.available) (hlatch : ¬ p.Latched u space' used) :
    (p.classify u space' used).severity ≤ (p.classify u space used).severity := by
  have hentry : p.within u space used 0 0 false = true → _ := within_mono h false
  have hrecovery : p.within u space used 0 0 true = true → _ := within_mono h true
  unfold Policy.classify
  by_cases hhard : space.available - p.reservedTotal < u.storage.hardReserveBytes
  · rw [if_pos hhard]
    exact severity_le _
  · rw [if_neg hhard, if_neg (show ¬ (space'.available - p.reservedTotal < u.storage.hardReserveBytes) by omega)]
    by_cases hpress : p.cleanupFailed = true ∨ p.within u space used 0 0 false = false
    · rw [if_pos hpress]
      split_ifs with hstill hrecovers
      · exact Nat.le_refl _
      · exact Nat.zero_le _
      · simp only [not_or, Bool.not_eq_true, Bool.not_eq_false] at hstill
        cases hstate : p.state with
        | normal | pressure => decide
        | hardStop =>
          refine absurd ⟨hstate, hstill.1, hstill.2, ?_⟩ hlatch
          exact Bool.eq_false_iff.mpr fun hr => hrecovers ⟨by simp [hstate], hr⟩
    · simp only [not_or, Bool.not_eq_true, Bool.not_eq_false] at hpress
      rw [if_neg (show ¬ (p.cleanupFailed = true ∨ p.within u _ used 0 0 false = false) by
          simp [hpress.1, hentry hpress.2]),
        if_neg (show ¬ (p.cleanupFailed = true ∨ p.within u space used 0 0 false = false) by simp [hpress])]
      split_ifs with hnow hbefore hbefore
      · exact Nat.le_refl _
      · exact Nat.zero_le _
      · exact absurd ⟨hbefore.1, hrecovery hbefore.2⟩ hnow
      · exact Nat.le_refl _

variable {media : Nat} {reading : Reading} {total available : Int} {critical : Bool} {state : StorageState} {w : World}

/-- A latched policy is stopped, and at the hard reserve it is under pressure. -/
theorem Policy.Latched.classify (h : (p.reserve u media).Latched u space used) :
    (p.reserve u media).classify u space used = .hardStop ∧ ∃ available, 0 ≤ available ∧ available ≤ space.available ∧
      (p.reserve u media).classify u { space with available := available } used = .pressure := by
  obtain ⟨hstate, hclean, hentry, hrecovery⟩ := h
  have hpositive := u.storage.positive
  have hgaps := u.storage.hysteresis.1
  constructor
  · simp [Policy.classify, hstate, hclean, hentry, hrecovery]
  · have hfree : u.storage.pressureFreeBytes ≤ space.available - (p.reserve u media).reservedTotal := by
      simp only [Policy.within, Bool.false_eq_true, if_false, Bool.and_eq_true, decide_eq_true_eq] at hentry
      omega
    simp only [Policy.reserve] at hfree
    refine ⟨u.storage.hardReserveBytes + (p.reserve u media).reservedTotal, ?_, ?_, ?_⟩
    · simp only [Policy.reserve]
      omega
    · simp only [Policy.reserve]
      omega
    · have hfull : (p.reserve u media).within u { space with available := u.storage.hardReserveBytes +
          (p.reserve u media).reservedTotal } used 0 0 false = false := by
        simp only [Policy.within, Bool.false_eq_true, if_false, Bool.and_eq_false_iff, decide_eq_false_iff_not]
        omega
      simp [Policy.classify, hfull]

theorem Accepts.mono {cleanupFailed : Bool} {state' : StorageState}
    (h : Accepts u cleanupFailed reading total media critical state) (hle : state'.severity ≤ state.severity) :
    Accepts u cleanupFailed reading total media critical state' := by
  cases state' with
  | normal => exact ⟨nofun, nofun⟩
  | pressure =>
    cases state with
    | normal => exact absurd hle (by decide)
    | pressure => exact h
    | hardStop => exact absurd rfl h.1
  | hardStop =>
    cases state with
    | normal | pressure => exact absurd hle (by decide)
    | hardStop => exact h

/-- Without more severity on more free space there is no latched policy, and conversely. -/
theorem severity_le_iff :
    (∀ available, 0 ≤ available → available ≤ space.available → ((p.reserve u media).classify u space used).severity ≤
      ((p.reserve u media).classify u { space with available := available } used).severity) ↔
        ¬ (p.reserve u media).Latched u space used := by
  constructor
  · intro hmono hlatched
    obtain ⟨hstop, available, hpos, hle, hpressure⟩ := hlatched.classify
    have := hmono available hpos hle
    rw [hstop, hpressure] at this
    exact absurd this (by decide)
  · intro hlatched available _ hle
    exact severity_classify_le hle hlatched

/-- What is accepted with less free space is accepted with more, unless the policy is latched and the request meets the terms of
the pressure. -/
theorem Accepts.of_less (hle : available ≤ reading.space.available)
    (haccepts : Accepts u p.cleanupFailed reading total media critical
      ((p.reserve u media).classify u { reading.space with available := available } reading.used))
    (hnot : ¬ ((p.reserve u media).Latched u reading.space reading.used ∧
      PressureTerms u p.cleanupFailed reading total media critical)) :
    Accepts u p.cleanupFailed reading total media critical ((p.reserve u media).classify u reading.space reading.used) := by
  by_cases hlatched : (p.reserve u media).Latched u reading.space reading.used
  case neg => exact haccepts.mono (severity_classify_le hle hlatched)
  -- a latched policy is not normal with less free space either
  refine absurd ⟨hlatched, haccepts.2 ?_⟩ hnot
  obtain ⟨hstate, -, -, hrecovery⟩ := hlatched
  have hne := haccepts.1
  unfold Policy.classify at hne ⊢
  split_ifs at hne ⊢ with h₁ h₂ h₃
  · exact absurd rfl hne
  · rfl
  · cases hrecovery.symm.trans (within_mono hle true h₃.2)
  · exact absurd hstate hne

/-- Acceptance is monotone in the free space exactly unless the policy is latched and the request meets the terms of the
pressure. -/
theorem accepts_iff : (∀ available, 0 ≤ available → available ≤ reading.space.available →
      Accepts u p.cleanupFailed reading total media critical
        ((p.reserve u media).classify u { reading.space with available := available } reading.used) →
      Accepts u p.cleanupFailed reading total media critical ((p.reserve u media).classify u reading.space reading.used)) ↔
        ¬ ((p.reserve u media).Latched u reading.space reading.used ∧
          PressureTerms u p.cleanupFailed reading total media critical) := by
  constructor
  · rintro hmono ⟨hlatched, hterms⟩
    obtain ⟨hstop, available, hpos, hle, hpressure⟩ := hlatched.classify
    have hrefused := hmono available hpos hle
    rw [hpressure, hstop] at hrefused
    exact (hrefused ⟨by decide, fun _ => hterms⟩).1 rfl
  · intro hnot available _ hle haccepts
    exact haccepts.of_less hle hnot

/-! ## The programs -/

/-- The request `p` is reserved for is under way, the state is `state`, and the environment does not interrupt. -/
structure Deciding (p : Policy) (state : StorageState) (w : World) : Prop where
  policy : ∃ failed, w.policy = { p with state := state, auditDeliveryFailed := failed }
  held : p.reservation = true
  turns : ∀ t ∈ w.turns, t.fault ≠ some .interrupt

variable {state : StorageState}

theorem deciding_risk : Triple (Deciding p state) risk (fun _ => Deciding p state)
    fun f w => Deciding p state w ∧ f.caught = true := by
  refine .bind (Q := fun _ => Deciding p state) ?_ fun _ => .pure fun _ hw => hw
  rintro w ⟨hp, hheld, hturns⟩
  unfold turn
  cases hw : w.turns with
  | nil => exact ⟨hp, hheld, hturns⟩
  | cons t ts =>
    rw [hw] at hturns
    have hrest : Deciding p state { w with turns := ts } := ⟨hp, hheld, fun t ht => hturns t (List.mem_cons_of_mem _ ht)⟩
    have ht := hturns t List.mem_cons_self
    dsimp only
    cases hfault : t.fault with
    | none => exact hrest
    | some f => exact ⟨hrest, by simpa [Failure.caught] using fun h => ht (hfault.trans (congrArg some h))⟩

theorem deciding_transition (next : StorageState) :
    Triple (Deciding p state) (transition u next) (fun _ => Deciding p next) fun _ _ => False := by
  refine .read_bind fun current => .ite (fun heq => .pure fun w hw => ?_) fun _ => ?_
  · obtain ⟨⟨⟨failed, hp⟩, hheld, hturns⟩, hcurrent⟩ := hw
    rw [← heq, ← hcurrent, hp]
    exact ⟨⟨failed, hp⟩, hheld, hturns⟩
  · refine .bind (Q := fun _ => Deciding p next) (.modify ?_) fun _ => .handle (F := fun f w => Deciding p next w ∧
      f.caught = true) (.bind deciding_risk fun _ => ?_) fun f => .ite (fun _ => ?_) fun hf => ?_
    · rintro w ⟨⟨⟨failed, hp⟩, hheld, hturns⟩, -⟩
      exact ⟨⟨failed, by rw [hp]⟩, hheld, hturns⟩
    · refine .bind (Q := fun _ => Deciding p next) (.read fun _ hw => hw) fun busy =>
        .bind (Q := fun _ => Deciding p next) (.require (fun _ hw _ => hw) fun _ hw _ => ⟨hw, rfl⟩) fun _ =>
        .read_bind fun held => .ite (fun _ => deciding_risk.strengthen fun _ hw => hw.1) fun hheld => ?_
      refine .of_fact (φ := False) (fun w hw => ?_) False.elim
      obtain ⟨⟨⟨failed, hp⟩, hres, -⟩, heq⟩ := hw
      exact hheld (by rw [← heq, hp]; exact hres)
    · refine .modify ?_
      rintro w ⟨⟨⟨failed, hp⟩, hheld, hturns⟩, -⟩
      exact ⟨⟨true, by rw [hp]⟩, hheld, hturns⟩
    · exact .fail fun w hw => hf hw.2

theorem deciding_stateFor (space : Space) (used : Nat) :
    Triple (Deciding p p.state) (stateFor u space used) (fun _ => Deciding p (p.classify u space used)) fun _ _ => False := by
  refine .read_bind fun p' => ?_
  refine .of_fact (φ := ∃ failed, p' = { p with auditDeliveryFailed := failed }) (fun w hw => ?_) ?_
  · obtain ⟨⟨failed, hp⟩, -⟩ := hw.1
    exact ⟨failed, hw.2.symm.trans hp⟩
  rintro ⟨failed, rfl⟩
  have hstart (next : StorageState) : Triple (fun w => Deciding p p.state w ∧ w.policy = { p with auditDeliveryFailed := failed })
      (transition u next) (fun _ => Deciding p next) fun _ _ => False :=
    (deciding_transition next).strengthen fun w hw => hw.1
  unfold Policy.classify
  change Triple _ (if space.available - p.reservedTotal < u.storage.hardReserveBytes then transition u .hardStop
    else if p.cleanupFailed = true ∨ p.within u space used 0 0 false = false then transition u .pressure
    else if p.state ≠ .normal ∧ p.within u space used 0 0 true = true then transition u .normal else pure ()) _ _
  split_ifs
  · exact hstart _
  · exact hstart _
  · exact hstart _
  · exact .pure fun w hw => hw.1

/-- `admit` leaves the classified state behind and accepts a reserved request exactly if `Accepts` allows it. -/
theorem deciding_decideAdmission (reading : Reading) (total : Int) (media : Nat) (critical : Bool) :
    Triple (Deciding p p.state) (decideAdmission u reading total media critical)
      (fun _ w => w.policy.state = p.classify u reading.space reading.used ∧
        Accepts u p.cleanupFailed reading total media critical w.policy.state)
      (fun _ w => w.policy.state = p.classify u reading.space reading.used ∧
        ¬ Accepts u p.cleanupFailed reading total media critical w.policy.state) := by
  refine .bind ((deciding_stateFor reading.space reading.used).raising fun _ _ h => h.elim) fun _ =>
    .read_bind fun found => ?_
  refine .of_fact (φ := found.state = p.classify u reading.space reading.used ∧ found.cleanupFailed = p.cleanupFailed)
    (fun w hw => ?_) ?_
  · obtain ⟨⟨⟨failed, hp⟩, -⟩, rfl⟩ := hw
    rw [hp]
    exact ⟨rfl, rfl⟩
  rintro ⟨hstate, hcleanup⟩
  rw [← hcleanup, ← hstate]
  refine .bind (Q := fun _ w => w.policy = found ∧ found.state ≠ .hardStop) (.require (fun w hw hc => ⟨hw.2, hc⟩)
    fun w hw hc => ?_) fun _ => .require (fun w hw hc => ?_) fun w hw hc => ?_
  · rw [hw.2]
    exact ⟨rfl, fun h => hc h.1⟩
  · rw [hw.1]
    exact ⟨rfl, hw.2, hc⟩
  · rw [hw.1]
    exact ⟨rfl, fun h => hc h.2⟩

theorem stateFor_state (hw : Deciding p p.state w) : (stateFor u space used w).2.policy.state = p.classify u space used := by
  have h := deciding_stateFor (u := u) (p := p) space used w hw
  rcases hrun : stateFor u space used w with ⟨f | a, v⟩ <;> rw [hrun] at h
  · exact h.elim
  · obtain ⟨⟨_, hp⟩, -⟩ := h
    rw [hp]

theorem decideAdmission_ok_iff (hw : Deciding p p.state w) : (decideAdmission u reading total media critical w).1 = .ok () ↔
      Accepts u p.cleanupFailed reading total media critical (p.classify u reading.space reading.used) := by
  have h := deciding_decideAdmission (u := u) (p := p) reading total media critical w hw
  rcases hrun : decideAdmission u reading total media critical w with ⟨f | a, v⟩ <;> rw [hrun] at h
  · rw [← h.1]
    exact ⟨nofun, fun h' => absurd h' h.2⟩
  · rw [← h.1]
    exact ⟨fun _ => h.2, fun _ => rfl⟩

/-! ## Two samples -/

/-- The environment of `t'` is that of `t` with a valid sample of at least as much free space. -/
def Turn.Roomier (t t' : Turn) : Prop :=
  ∃ available, t.space.available ≤ available ∧ (t.space.available ≤ t.space.total → available ≤ t.space.total) ∧
    t' = { t with space := { t.space with available := available } }

/-- The policies and the usage are the same, and the samples to come report at least as much free space. -/
structure Roomier (w w' : World) : Prop where
  policy : w'.policy = w.policy
  usage : ∀ starredOnly criticalOnly,
    w'.tables.usageBytes starredOnly criticalOnly = w.tables.usageBytes starredOnly criticalOnly
  turns : List.Forall₂ Turn.Roomier w.turns w'.turns

/-- The same usage, read with at least as much free space. -/
def Reading.Roomier (r r' : Reading) : Prop :=
  ∃ available, r.space.available ≤ available ∧ r' = { r with space := { r.space with available := available } }

theorem follows_turn : Follows Roomier Turn.Roomier turn turn := by
  rintro w w' t v ⟨hp, husage, hturns⟩ hrun
  unfold turn at hrun ⊢
  rcases hw : w.turns with _ | ⟨t₀, rest⟩
  · rw [hw] at hturns hrun
    cases hrun
    have hw' : w'.turns = [] := List.forall₂_nil_left_iff.mp hturns
    rw [hw']
    exact ⟨{}, w', rfl, ⟨0, Int.le_refl 0, id, rfl⟩, hp, husage, by rw [hw, hw']; exact .nil⟩
  · rw [hw] at hturns hrun
    obtain ⟨t', rest', ⟨available, hle, hvalid, rfl⟩, hrest, hw'⟩ := List.forall₂_cons_left_iff.mp hturns
    rw [hw']
    dsimp only at hrun ⊢
    cases hfault : t₀.fault with
    | some f =>
      rw [hfault] at hrun
      cases hrun
    | none =>
      rw [hfault] at hrun
      cases hrun
      exact ⟨_, _, rfl, ⟨available, hle, hvalid, by rw [hfault]⟩, hp, husage, hrest⟩

theorem follows_risk : Follows Roomier (fun _ _ => True) risk risk :=
  follows_turn.bind fun _ _ _ => .pure trivial

theorem follows_usageBytes (starredOnly criticalOnly : Bool) :
    Follows Roomier Eq (usageBytes starredOnly criticalOnly) (usageBytes starredOnly criticalOnly) :=
  follows_risk.bind fun _ _ _ => follows_risk.bind fun _ _ _ => .read fun _ _ hw => (hw.usage _ _).symm

theorem follows_sample : Follows Roomier (fun s s' => ∃ available, s.available ≤ available ∧
    (s.available ≤ s.total → available ≤ s.total) ∧ s' = { s with available := available }) sample sample := by
  refine follows_turn.bind fun t t' ht => .bind (.modify fun w w' hw => ⟨hw.policy, hw.usage, hw.turns⟩) fun _ _ _ => ?_
  obtain ⟨available, hle, hvalid, rfl⟩ := ht
  exact .pure ⟨available, hle, hvalid, rfl⟩

theorem stop_not_ok {α : Type} (stop : StoreM Unit) (f : Failure) (w : World) (a : α) (v : World) :
    (stop >>= fun _ => (fail f : StoreM α)) w ≠ (.ok a, v) := fun h => by
  obtain ⟨_, _, -, hfail⟩ := bind_ok_iff.mp h
  cases hfail

theorem follows_readUsage : Follows Roomier Reading.Roomier (readUsage u) (readUsage u) := by
  have hstop (f : Failure) (w : World) (a : Reading) (v : World) : (if f.caught then do
      transition u .hardStop
      fail (.recording .storageHardStop)
    else fail f : StoreM Reading) w ≠ (.ok a, v) := by
    split_ifs
    · exact stop_not_ok _ _ w a v
    · exact nofun
  refine .handle (.bind follows_sample fun space space' hspace => .bind (follows_usageBytes _ _) fun used used' hused =>
    .bind (follows_usageBytes _ _) fun critical critical' hcritical => .bind (follows_usageBytes _ _) fun _ _ _ =>
    .bind (.require fun h => ?_) fun _ _ _ => .pure ?_) hstop hstop
  · obtain ⟨available, hle, hvalid, rfl⟩ := hspace
    exact ⟨h.1.trans hle, h.2.1, hvalid h.2.2⟩
  · obtain ⟨available, hle, -, rfl⟩ := hspace
    exact ⟨available, hle, by rw [hused, hcritical]⟩

theorem follows_guardMetadata : Follows Roomier (fun _ _ => True) (guardMetadata u) (guardMetadata u) := by
  refine .bind follows_readUsage fun reading reading' hreading => .bind (R := Eq) (.read fun w w' hw => hw.policy.symm)
    fun p p' hp => ?_
  obtain ⟨available, hle, rfl⟩ := hreading
  subst hp
  intro w w' a v hw hrun
  dsimp only at hrun ⊢
  split_ifs at hrun with hfull
  · exact absurd hrun (stop_not_ok _ _ w a v)
  · rw [if_neg (by omega)]
    cases hrun
    exact ⟨(), w', rfl, trivial, hw⟩

/-- What `admit` does before it reclaims. -/
def beforeReclaim (u : Setup) (media : Nat) : StoreM Unit := do
  note fun w => .admits .media w.policy.reservation
  let held ← read fun w => w.policy.reservation
  require ((media : Int) ≤ u.storage.maxRequestBytes ∧ held = false) (.recording .storageInvalidReservation)
  guardMetadata u
  setPolicy fun p => { p with cleanupFailed := false }

/-- The reclamation, as `admit` takes its failures. -/
def reclaimStep (u : Setup) (media : Nat) : StoreM Unit :=
  handle (reclaim u (media + u.storage.writeOverheadBytes) media)
    fun f => if f.caught then setPolicy fun p => { p with cleanupFailed := true } else fail f

/-- The usage and the policy that `admit` decides about. -/
def reserveRequest (u : Setup) (media : Nat) : StoreM (Reading × Policy) := do
  let reading ← readUsage u
  let p ← read World.policy
  setPolicy fun p => p.reserve u media
  return (reading, p)

theorem follows_beforeReclaim (media : Nat) :
    Follows Roomier (fun _ _ => True) (beforeReclaim u media) (beforeReclaim u media) := by
  refine .bind (.modify fun w w' hw => ⟨hw.policy, hw.usage, hw.turns⟩) fun _ _ _ =>
    .bind (R := Eq) (.read fun w w' hw => by rw [hw.policy]) fun held held' hheld => .bind (.require fun h => hheld ▸ h)
    fun _ _ _ => .bind follows_guardMetadata fun _ _ _ => .modify fun w w' hw => ⟨?_, hw.usage, hw.turns⟩
  dsimp only
  rw [hw.policy]

theorem follows_reserveRequest (media : Nat) : Follows Roomier (fun a a' => a.1.Roomier a'.1 ∧ a.2 = a'.2)
    (reserveRequest u media) (reserveRequest u media) := by
  refine .bind follows_readUsage fun reading reading' hreading => .bind (R := Eq) (.read fun w w' hw => hw.policy.symm)
    fun p p' hp => .bind (.modify fun w w' hw => ⟨?_, hw.usage, hw.turns⟩) fun _ _ _ => .pure ⟨hreading, hp⟩
  dsimp only
  rw [hw.policy]

/-- `admit` in four parts. -/
theorem admitMedia_eq (media : Nat) (critical : Bool) : admitMedia u media critical = (do
    beforeReclaim u media
    reclaimStep u media
    let request ← reserveRequest u media
    handle (decideAdmission u request.1 (media + u.storage.writeOverheadBytes) media critical) fun f => do
      release
      fail f
    note fun w => .admitted .media w.lastSample w.policy.reservedTotal) := by
  simp only [beforeReclaim, reserveRequest, bind_assoc, pure_bind]
  rfl

theorem admitMedia_ok_iff (media : Nat) (critical : Bool) (w : World) :
    (admitMedia u media critical w).1 = .ok () ↔ ∃ w₁ w₂ reading p w₃, beforeReclaim u media w = (.ok (), w₁) ∧
      reclaimStep u media w₁ = (.ok (), w₂) ∧ reserveRequest u media w₂ = (.ok (reading, p), w₃) ∧
      (decideAdmission u reading (media + u.storage.writeOverheadBytes) media critical w₃).1 = .ok () := by
  rw [admitMedia_eq]
  constructor
  · intro hok
    obtain ⟨_, w₁, hbefore, hrun⟩ := bind_ok_iff.mp (Prod.ext hok rfl)
    obtain ⟨_, w₂, hreclaim, hrun⟩ := bind_ok_iff.mp hrun
    obtain ⟨⟨reading, p⟩, w₃, hreserve, hrun⟩ := bind_ok_iff.mp hrun
    obtain ⟨_, w₄, hdecide, -⟩ := bind_ok_iff.mp hrun
    refine ⟨w₁, w₂, reading, p, w₃, hbefore, hreclaim, hreserve, ?_⟩
    rw [(handle_ok_iff fun f w a v => stop_not_ok _ _ w a v).mp hdecide]
  · rintro ⟨w₁, w₂, reading, p, w₃, hbefore, hreclaim, hreserve, hdecide⟩
    have hdecided := (handle_ok_iff fun f w a v => stop_not_ok release f w a v).mpr (Prod.ext hdecide rfl)
    exact congrArg Prod.fst (bind_ok_iff.mpr ⟨_, _, hbefore, bind_ok_iff.mpr ⟨_, _, hreclaim,
      bind_ok_iff.mpr ⟨_, _, hreserve, bind_ok_iff.mpr ⟨_, _, hdecided, rfl⟩⟩⟩⟩)

theorem reserveRequest_deciding {w' : World} (h : reserveRequest u media w = (.ok (reading, p), w'))
    (hturns : ∀ t ∈ w'.turns, t.fault ≠ some .interrupt) : Deciding (p.reserve u media) p.state w' := by
  obtain ⟨_, _, -, h⟩ := bind_ok_iff.mp h
  obtain ⟨_, _, ⟨⟩, h⟩ := bind_ok_iff.mp h
  obtain ⟨_, _, ⟨⟩, ⟨⟩⟩ := bind_ok_iff.mp h
  exact ⟨⟨_, rfl⟩, rfl, hturns⟩

theorem Roomier.calm {w' : World} (h : Roomier w w') (hturns : ∀ t ∈ w'.turns, t.fault ≠ some .interrupt) :
    ∀ t ∈ w.turns, t.fault ≠ some .interrupt := by
  obtain ⟨-, -, hrel⟩ := h
  generalize w.turns = ts, w'.turns = ts' at hrel hturns
  induction hrel with
  | nil => exact fun _ ht => absurd ht List.not_mem_nil
  | cons ht _ ih =>
    obtain ⟨available, -, -, rfl⟩ := ht
    obtain ⟨hhead, hrest⟩ := List.forall_mem_cons.mp hturns
    exact List.forall_mem_cons.mpr ⟨hhead, ih hrest⟩

/-- The reclaimer does the same in both worlds. -/
def SameReclaim (u : Setup) (media : Nat) (w w' : World) : Prop :=
  ∀ w₁ w₁', beforeReclaim u media w = (.ok (), w₁) → beforeReclaim u media w' = (.ok (), w₁') →
    (reclaimStep u media w₁').1 = (reclaimStep u media w₁).1 ∧
      Roomier (reclaimStep u media w₁).2 (reclaimStep u media w₁').2

/-- What is decided about in `w` is not interrupted, and no latched policy meets a request on the terms of the pressure. -/
def Unlatched (u : Setup) (media : Nat) (critical : Bool) (w : World) : Prop :=
  ∀ w₁ reading p w₂, beforeReclaim u media w = (.ok (), w₁) →
    reserveRequest u media (reclaimStep u media w₁).2 = (.ok (reading, p), w₂) →
    (∀ t ∈ w₂.turns, t.fault ≠ some .interrupt) ∧ ¬ ((p.reserve u media).Latched u reading.space reading.used ∧
      PressureTerms u p.cleanupFailed reading (media + u.storage.writeOverheadBytes) media critical)

/-- **More free space is not treated worse**, exactly unless it leaves a stopped policy latched. For a reserved request, the state
that `_state_for` leaves is no more severe than with any smaller sample exactly if the policy is not latched, and `admit` decides
for whatever it decides for with a smaller sample exactly if the policy is not latched or the request does not meet the terms of
the pressure. So what `admit` takes it takes with larger samples as well, with the same reclamation. -/
theorem storage_admission_monotone :
    (∀ (p : Policy) (media : Nat) (space : Space) (used : Nat) (w : World), Deciding (p.reserve u media) p.state w →
      ((∀ available, 0 ≤ available → available ≤ space.available →
        (stateFor u space used w).2.policy.state.severity ≤
          (stateFor u { space with available := available } used w).2.policy.state.severity) ↔
        ¬ (p.reserve u media).Latched u space used)) ∧
    (∀ (p : Policy) (media : Nat) (reading : Reading) (critical : Bool) (w : World), Deciding (p.reserve u media) p.state w →
      ((∀ available, 0 ≤ available → available ≤ reading.space.available →
        (decideAdmission u { reading with space := { reading.space with available := available } }
          (media + u.storage.writeOverheadBytes) media critical w).1 = .ok () →
        (decideAdmission u reading (media + u.storage.writeOverheadBytes) media critical w).1 = .ok ()) ↔
        ¬ ((p.reserve u media).Latched u reading.space reading.used ∧
          PressureTerms u p.cleanupFailed reading (media + u.storage.writeOverheadBytes) media critical))) ∧
    ∀ (media : Nat) (critical : Bool) (w w' : World), Roomier w w' → SameReclaim u media w w' →
      Unlatched u media critical w' → (admitMedia u media critical w).1 = .ok () → (admitMedia u media critical w').1 = .ok () := by
  refine ⟨?_, ?_, ?_⟩
  · intro p media space used w hw
    simp only [stateFor_state (p := p.reserve u media) hw]
    exact severity_le_iff
  · intro p media reading critical w hw
    simp only [decideAdmission_ok_iff (p := p.reserve u media) hw]
    exact accepts_iff
  · intro media critical w w' hw hsame hunlatched hok
    obtain ⟨w₁, w₂, reading, p, w₃, hbefore, hreclaim, hreserve, hdecide⟩ := (admitMedia_ok_iff media critical w).mp hok
    obtain ⟨_, w₁', hbefore', -, -⟩ := follows_beforeReclaim media w w' () w₁ hw hbefore
    obtain ⟨hout, hrel⟩ := hsame w₁ w₁' hbefore hbefore'
    rw [hreclaim] at hout hrel
    obtain ⟨⟨reading', p'⟩, w₃', hreserve', ⟨hreading, hp⟩, hw₃⟩ :=
      follows_reserveRequest media w₂ _ (reading, p) w₃ hrel hreserve
    obtain ⟨hcalm, hlatch⟩ := hunlatched w₁' reading' p' w₃' hbefore' hreserve'
    obtain ⟨available, hle, rfl⟩ := hreading
    dsimp only at hp
    subst hp
    have hreclaim' : reclaimStep u media w₁' = (.ok (), (reclaimStep u media w₁').2) := Prod.ext hout rfl
    refine (admitMedia_ok_iff media critical w').mpr ⟨w₁', _, _, p, w₃', hbefore', hreclaim', hreserve', ?_⟩
    rw [decideAdmission_ok_iff (p := p.reserve u media) (reserveRequest_deciding hreserve' hcalm)]
    rw [decideAdmission_ok_iff (p := p.reserve u media) (reserveRequest_deciding hreserve (hw₃.calm hcalm))] at hdecide
    exact hdecide.of_less hle hlatch

/-- A store without recordings on a filesystem whose samples all report `available`. -/
def tight (state : StorageState) (available : Int) : World :=
  { World.resting state {} with turns := List.replicate 40 { space := ⟨available, 9000⟩ } }

theorem forall₂_roomier {a b : Int} (h : a ≤ b) (hb : b ≤ 9000) (n : Nat) :
    List.Forall₂ Turn.Roomier (List.replicate n { space := ⟨a, 9000⟩ }) (List.replicate n { space := ⟨b, 9000⟩ }) := by
  induction n with
  | zero => exact .nil
  | succ n ih => exact .cons ⟨b, h, fun _ => hb, rfl⟩ ih

theorem tight_roomier (state : StorageState) : Roomier (tight state 25) (tight state 30) where
  policy := rfl
  usage _ _ := rfl
  turns := forall₂_roomier (by decide) (by decide) 40

theorem tight_reclaimed (hstate : state ≠ .normal) (ha : available = 25 ∨ available = 30)
    (h : beforeReclaim smallSetup 3 (tight state available) = (.ok (), w)) :
    (reclaimStep smallSetup 3 w).1 = .ok () ∧ (reclaimStep smallSetup 3 w).2.policy = { state := state } ∧
      (∀ starredOnly criticalOnly, (reclaimStep smallSetup 3 w).2.tables.usageBytes starredOnly criticalOnly = 0) ∧
      (reclaimStep smallSetup 3 w).2.turns = List.replicate 23 { space := ⟨available, 9000⟩ } := by
  have heq : w = (beforeReclaim smallSetup 3 (tight state available)).2 := by rw [h]
  rw [heq]
  clear h heq
  cases state with
  | normal => exact absurd rfl hstate
  | pressure | hardStop => obtain rfl | rfl := ha <;> decide +kernel

theorem tight_sameReclaim (hstate : state ≠ .normal) : SameReclaim smallSetup 3 (tight state 25) (tight state 30) := by
  intro w₁ w₁' h h'
  obtain ⟨hr, hp, husage, hturns⟩ := tight_reclaimed hstate (.inl rfl) h
  obtain ⟨hr', hp', husage', hturns'⟩ := tight_reclaimed hstate (.inr rfl) h'
  refine ⟨hr'.trans hr.symm, hp'.trans hp.symm, fun s c => (husage' s c).trans (husage s c).symm, ?_⟩
  rw [hturns, hturns']
  exact forall₂_roomier (by decide) (by decide) 23

/-- A stopped policy admits a critical segment with 25 bytes free and refuses it with 30. -/
theorem latched_admission_refused :
    Roomier (tight .hardStop 25) (tight .hardStop 30) ∧ SameReclaim smallSetup 3 (tight .hardStop 25) (tight .hardStop 30) ∧
    (admitMedia smallSetup 3 true (tight .hardStop 25)).1 = .ok () ∧
    (admitMedia smallSetup 3 true (tight .hardStop 30)).1 = .error (.recording .storageHardStop) :=
  ⟨tight_roomier .hardStop, tight_sameReclaim (by decide), by decide +kernel, by decide +kernel⟩

theorem tight_unlatched : Unlatched smallSetup 3 true (tight .pressure 30) := by
  intro w₁ reading p w₂ h hreserve
  have hdecided : (match reserveRequest smallSetup 3 (reclaimStep smallSetup 3
      (beforeReclaim smallSetup 3 (tight .pressure 30)).2).2 with
    | (.ok (_, p), w) => decide (p.state ≠ .hardStop ∧ ∀ t ∈ w.turns, t.fault = none)
    | _ => false) = true := by decide +kernel
  rw [h, hreserve] at hdecided
  obtain ⟨hstate, hturns⟩ := of_decide_eq_true hdecided
  exact ⟨fun t ht => by rw [hturns t ht]; exact nofun, fun hlatched => hstate hlatched.1.1⟩

theorem storage_admission_monotone_pressure :
    (admitMedia smallSetup 3 true (tight .pressure 25)).1 = .ok () ∧
    (admitMedia smallSetup 3 true (tight .pressure 30)).1 = .ok () := by
  have hok : (admitMedia smallSetup 3 true (tight .pressure 25)).1 = .ok () := by decide +kernel
  exact ⟨hok, storage_admission_monotone.2.2 3 true (tight .pressure 25) (tight .pressure 30) (tight_roomier .pressure)
    (tight_sameReclaim (by decide)) tight_unlatched hok⟩

/-- **Hysteresis.** Between a reading at which a policy returns to the normal state and one at which it leaves it again, with the
same reservation and without a failed reclamation, the free space fell by more than the gap between the two thresholds of the free
space, or the bytes stored grew by at least the gap between those of the allocation. -/
theorem recovery_outlasts_hysteresis {p p' : Policy} {space space' : Space} {used used' : Nat} {w w' : World}
    (hw : Deciding p p.state w) (hw' : Deciding p' p'.state w') (hstate : p.state ≠ .normal)
    (hrecovers : (stateFor u space used w).2.policy.state = .normal) (hstate' : p'.state = .normal)
    (hleaves : (stateFor u space' used' w').2.policy.state ≠ .normal) (hclean : p'.cleanupFailed = false)
    (htotal : p'.reservedTotal = p.reservedTotal) (hmedia : p'.reservedMedia = p.reservedMedia) :
    u.storage.recoveryFreeBytes - u.storage.pressureFreeBytes < space.available - space'.available ∨
      u.storage.recordingLimitBytes - u.storage.recoveryAllocationBytes ≤ (used' : Int) - used := by
  rw [stateFor_state hw, Policy.classify] at hrecovers
  rw [stateFor_state hw', Policy.classify] at hleaves
  have hreserve := u.storage.hysteresis.1
  have hrecovery : p.within u space used 0 0 true = true := by
    split_ifs at hrecovers with _ _ hrecovery
    · exact hrecovery.2
    · exact absurd hrecovers hstate
  have hentry : ¬p'.within u space' used' 0 0 false = true ∨ space'.available - p'.reservedTotal < u.storage.hardReserveBytes := by
    by_contra hinside
    push Not at hinside
    simp [hinside.1, hclean, not_lt.2 hinside.2, hstate'] at hleaves
  simp only [Policy.within, if_true, Bool.false_eq_true, if_false, Bool.and_eq_true, decide_eq_true_eq] at hrecovery hentry
  omega

/-- A policy in the state, with a reservation. -/
def reserving (state : StorageState) : World := { World.resting state {} with policy := { state := state, reservation := true } }

theorem reserving_deciding (state : StorageState) : Deciding (reserving state).policy state (reserving state) :=
  ⟨⟨false, rfl⟩, rfl, fun _ ht => absurd ht List.not_mem_nil⟩

theorem recovery_outlasts_hysteresis_small :
    (stateFor smallSetup ⟨40, 100⟩ 400 (reserving .pressure)).2.policy.state = .normal ∧
    (stateFor smallSetup ⟨15, 100⟩ 400 (reserving .normal)).2.policy.state ≠ .normal ∧
    ((30 - 20 : Int) < 40 - 15 ∨ (1000 - 500 : Int) ≤ (400 : Nat) - (400 : Nat)) := by
  have hrecovers : (stateFor smallSetup ⟨40, 100⟩ 400 (reserving .pressure)).2.policy.state = .normal := by decide +kernel
  have hleaves : (stateFor smallSetup ⟨15, 100⟩ 400 (reserving .normal)).2.policy.state ≠ .normal := by decide +kernel
  exact ⟨hrecovers, hleaves, recovery_outlasts_hysteresis (reserving_deciding .pressure) (reserving_deciding .normal) (by decide)
    hrecovers rfl hleaves rfl rfl rfl⟩

end Sentinel.Recording
