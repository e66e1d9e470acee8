import Sentinel.Ring.Proofs.RemovalProofs

/-!
# Every method makes only permitted changes

One `Safe` triple for each part of `DiskRing`, along the structure of the code.
-/

namespace Sentinel.Ring

open Program

variable {s : Settings} {c : Ctx} {l l₁ l₂ : Ledger} {P : Ledger → Prop} {now : Int} {trusted : Bool}

/-- Nothing is said about the ledger. -/
def Anything (_ : Ledger) : Prop := True

/-- Nothing is said about a failure. -/
def Fails (_ : Failure) (_ : Ledger) : Prop := True

theorem Reads.fails {α : Type} {p : RingM α} (h : Reads s c p) : Safe s c P p (fun _ => P) Fails :=
  h.safe fun _ _ _ => trivial

/-! ## Ticks -/

theorem completeAt_safe {incident : Incident} {rest : List Incident} (hc : c.trusted = true)
    (hnow : now = c.now) (hdue : ∀ row ∈ incident :: rest, row.state = .active ∧ row.stop ≤ now)
    (hnodup : ((incident :: rest).map Incident.id).Nodup) :
    Safe s c (fun l => ∀ row ∈ incident :: rest, row ∈ l.incidents.rows) (completeAt now incident)
      (fun _ l => ∀ row ∈ rest, row ∈ l.incidents.rows) Fails := by
  refine .getLedger fun l' _ _ hrows => .transact (fun _ _ _ _ => trivial) ?_ (fun _ => nofun) ?_
  · rintro l - rfl
    refine ⟨hc, ?_, fun row hrow hid => ?_⟩
    · split_ifs
      · exact .inr rfl
      · exact .inl rfl
    · obtain rfl : row = incident := Table.eq_of_key hrow (hrows incident List.mem_cons_self) hid
      have hrow := hdue row List.mem_cons_self
      exact ⟨hrow.1, hnow ▸ hrow.2, rfl, rfl⟩
  · rintro l - rfl row hrow
    have hne : row.id ≠ incident.id := by
      rw [List.map_cons, List.nodup_cons] at hnodup
      exact fun heq => hnodup.1 (heq ▸ List.mem_map_of_mem hrow)
    have hmem := hrows row (List.mem_cons_of_mem _ hrow)
    exact List.mem_map.mpr ⟨row, hmem, if_neg hne⟩

theorem completeAll_safe {rows : List Incident} (hc : c.trusted = true) (hnow : now = c.now)
    (hdue : ∀ row ∈ rows, row.state = .active ∧ row.stop ≤ now)
    (hnodup : (rows.map Incident.id).Nodup) :
    Safe s c (fun l => ∀ row ∈ rows, row ∈ l.incidents.rows) (forEach (completeAt now) rows)
      (fun _ => Anything) Fails := by
  induction rows with
  | nil => exact .pure fun _ _ _ => trivial
  | cons incident rest ih =>
    have hnodup' : (rest.map Incident.id).Nodup := by
      rw [List.map_cons, List.nodup_cons] at hnodup
      exact hnodup.2
    exact .bind (completeAt_safe hc hnow hdue hnodup) fun _ =>
      ih (fun row hrow => hdue row (List.mem_cons_of_mem _ hrow)) hnodup'

theorem expireAt_safe (hc : c.trusted = true) (hnow : now = c.now) (hticks : c.ticks = true)
    (hprop : c.proposed = none) :
    Safe s c Anything (expireAt now) (fun _ => Anything) Fails := by
  refine .getLedger fun l' _ _ _ => ?_
  refine .bind ((completeAll_safe hc hnow (fun row hrow => ?_) ?_).strengthen ?_) fun _ => ?_
  · simpa using (List.mem_filter.mp hrow).2
  · exact l'.incidents.nodup.sublist (List.filter_sublist.map Incident.id)
  · rintro l - rfl row hrow
    exact (List.mem_filter.mp hrow).1
  · refine .getLedger fun l₂ hl₂ _ _ => ?_
    refine ((deleteIncidents_safe l₂ ?_ (fun _ => ⟨hc, hnow⟩) hprop).conseq
      (fun l _ h => h ▸ .refl l₂) (fun _ _ _ _ => trivial) fun _ _ _ => trivial)
    intro row hrow other hother hid
    obtain ⟨hmem, hcond⟩ := List.mem_filter.mp hrow
    obtain rfl : other = row := Table.eq_of_key hother hmem hid
    -- an expired incident ended a retention ago
    rw [Bool.and_eq_true, Option.any_eq_true] at hcond
    obtain ⟨-, expires, hexp, hle⟩ := hcond
    have heq := hl₂.expiry other hother expires hexp
    have hle : expires ≤ now := of_decide_eq_true hle
    exact .inr (.inr ⟨hticks, hc, by omega⟩)

theorem tickAt_safe (hc : c.Grants now trusted) (hticks : trusted = true → c.ticks = true)
    (hprop : c.proposed = none) :
    Safe s c Anything (tickAt now trusted) (fun _ => Anything) Fails := by
  refine .bind (Reads.require.fails) fun _ => .getLedger fun l' _ _ _ => ?_
  have hresume : Safe s c (fun l => l = l')
      (forEach (fun row => deleteIncidentAt row.id now trusted)
        (l'.incidents.rows.filter fun row => row.state == .deleting)) (fun _ => Anything) Fails := by
    refine (deleteIncidents_safe l' ?_ hc hprop).conseq (fun l _ h => h ▸ .refl l')
      (fun _ _ _ _ => trivial) fun _ _ _ => trivial
    intro row hrow other hother hid
    obtain ⟨hmem, hstate⟩ := List.mem_filter.mp hrow
    obtain rfl : other = row := Table.eq_of_key hother hmem hid
    have hstate : other.state = .deleting := by simpa using hstate
    exact .inl (by rw [hstate]; rfl)
  refine .bind hresume fun _ => .ite (fun ht => ?_) fun _ => ?_
  · exact expireAt_safe (hc ht).1 (hc ht).2 (hticks ht) hprop
  · exact .transact (fun _ _ _ _ => trivial) (fun _ _ _ => trivial) (fun _ => nofun) fun _ _ _ => trivial

/-! ## Preservation and the clock -/

variable {profiles : Profiles} {reason : IncidentReason} {k : Configuration} {clearingPending claimed : Bool}

theorem requireCapacity_safe {config : RingConfig} {request : Request} :
    Safe s c P (requireCapacity s config profiles request) (fun _ l => P l ∧ ∃ required,
      l.ledgerCapacity s.ledgerMaximumBytes config profiles request = .ok required) Fails := by
  refine .getLedger fun l' _ _ hP => ?_
  refine (Safe.lift fun _ _ _ _ => trivial).weaken ?_
  rintro required l - ⟨rfl, hok⟩
  refine ⟨hP, ?_⟩
  cases hcap : l.ledgerCapacity s.ledgerMaximumBytes config profiles request with
  | ok required' => exact ⟨required', rfl⟩
  | error e =>
    rw [hcap] at hok
    cases hok

theorem configured_safe {refusal : Refusal} :
    Safe s c P (configured refusal) (fun k l => P l ∧ l.configuration = some k) Fails := by
  refine .getMemory fun m => ?_
  cases hm : m.configuration with
  | none => exact .fail fun _ _ => trivial
  | some k => exact .pure fun l _ h => ⟨h.1, h.2.symm⟩

theorem insertIncident_safe {start stop : Int} (horder : start < stop) : Safe s c (fun l => l.configuration = some k ∧ ∃ required,
        l.ledgerCapacity s.ledgerMaximumBytes k.config k.profiles { proposal := some (start, stop) }
          = .ok required)
      (insertIncident k reason start stop trusted clearingPending) (fun _ => Anything) Fails := by
  refine .bind .freshId fun identifier => .bind (.ledgerTurn fun _ _ _ _ => trivial) fun _ =>
    .getLedger fun l' _ _ hl' => .bind (.require fun _ _ _ => trivial) fun _ => ?_
  refine .bind (Q := fun _ => Anything) (.act ?_ (fun _ => nofun) fun _ _ _ => trivial) fun _ =>
    .pure fun _ _ _ => trivial
  rintro l - ⟨rfl, hfree, -⟩
  exact ⟨hfree, ⟨rfl, rfl, rfl⟩, horder, k, hl'.1, rfl, rfl, hl'.2⟩

theorem preserveAt_safe {clock : RingM Bool} {start stop : Int} (hprop : c.proposed = none)
    (hclock : Safe s c Anything clock (fun b _ => c.Grants now b ∧ (b = true → c.ticks = true)) Fails) :
    Safe s c Anything (preserveAt s clock reason start stop now clearingPending) (fun _ => Anything)
      Fails := by
  refine .bind Reads.require.fails fun _ => ?_
  refine .bind (Q := fun _ _ => start < stop) ((Safe.require fun _ _ _ => trivial).weaken
    fun _ _ _ h => h.2) fun _ => ?_
  refine .start fun l₀ _ _ horder => ?_
  refine .bind (Q := fun k l => l.configuration = some k)
    (configured_safe.weaken fun _ _ _ h => h.2) fun k => ?_
  refine .bind (requireCapacity_safe.weaken fun _ _ _ h => h.1) fun _ => ?_
  -- the clock may open the incident of a pending loss, but keeps the configuration
  refine .bind (Q := fun b l => l.configuration = some k ∧ c.Grants now b ∧ (b = true → c.ticks = true))
    ((hclock.frame (stable_configuration hprop (some k))).conseq (fun _ _ h => ⟨trivial, h⟩)
      (fun _ _ _ h => ⟨h.2, h.1⟩) fun _ _ _ => trivial) fun b => ?_
  refine .start fun l₁ _ _ hl₁ => ?_
  refine .bind (Q := fun _ l => l.configuration = some k ∧ ∃ required,
    l.ledgerCapacity s.ledgerMaximumBytes k.config k.profiles { proposal := some (start, stop) }
      = .ok required) (requireCapacity_safe.weaken fun _ l _ h => ⟨h.1 ▸ hl₁.1, h.2⟩) fun _ => ?_
  refine .bind (insertIncident_safe horder) fun identifier => ?_
  exact .bind (tickAt_safe hl₁.2.1 hl₁.2.2 hprop) fun _ => .pure fun _ _ _ => trivial

theorem materialise_safe (hprop : c.proposed = none) :
    Safe s c Anything (materialise s now) (fun _ => Anything) Fails := by
  refine .getLedger fun l' _ _ _ => ?_
  refine .bind ((preserveAt_safe hprop ?_).strengthen fun _ _ _ => trivial) fun _ =>
    .pure fun _ _ _ => trivial
  exact .pure fun _ _ _ => ⟨Ctx.grants_false, (absurd · Bool.false_ne_true)⟩

/-- `clock` returns the effective trust of the call, and then its time is recorded. -/
theorem clock_safe (hnow : now = c.now) (hprop : c.proposed = none)
    (hclaim : ∀ l, Timely c l → clockRead l now claimed = c.trusted) : Safe s c Anything (clock s now claimed)
      (fun b l => b = c.trusted ∧ (b = true → l.latestClock = some c.now)) Fails := by
  refine .getLedger fun l' _ htimely _ => ?_
  have hread := hclaim l' htimely
  refine .ite (fun hyes => ?_) fun hno => ?_
  · rw [hyes] at hread
    refine .bind (Q := fun _ l => l.latestClock = some c.now) (.transact (fun _ _ _ _ => trivial) ?_
      (fun _ => nofun) ?_) fun _ => .getLedger fun l'' _ _ hrec => .getMemory fun m => ?_
    · rintro l - rfl
      unfold clockRead at hyes
      rw [Bool.and_eq_true] at hyes
      exact ⟨hread.symm, hnow, of_decide_eq_true hyes.2⟩
    · rintro l - rfl
      exact congrArg some hnow
    · refine .bind (Q := fun _ l => l.latestClock = some c.now)
        (.whenever (fun _ => ?_) fun l _ h _ => ?_) fun _ => .pure fun l _ h => ⟨hread, fun _ => h⟩
      · exact ((materialise_safe hprop).frame stable_recorded).conseq
          (fun l _ h => ⟨trivial, h.1 ▸ hrec⟩) (fun _ _ _ h => h.2) fun _ _ _ => trivial
      · exact h.1 ▸ hrec
  · have hfalse : clockRead l' now claimed = false := by simpa using hno
    rw [hfalse] at hread
    exact .pure fun _ _ _ => ⟨hread, (absurd · Bool.false_ne_true)⟩

theorem grants_trusted (hnow : now = c.now) : c.Grants now c.trusted := fun h => ⟨h, hnow⟩

theorem clock_grants (hnow : now = c.now) (hprop : c.proposed = none)
    (hclaim : ∀ l, Timely c l → clockRead l now claimed = c.trusted) :
    Safe s c Anything (clock s now claimed) (fun b _ => c.Grants now b) Fails :=
  (clock_safe hnow hprop hclaim).weaken fun _ _ _ h => h.1 ▸ grants_trusted hnow

theorem clockRead_claimed (hnow : now = c.now) (hclaimed : claimed = c.claimed) :
    ∀ l, Timely c l → clockRead l now claimed = c.trusted := by
  rintro l htimely
  subst hnow hclaimed
  exact htimely

theorem clockRead_trusted (hnow : now = c.now) :
    ∀ l, Timely c l → clockRead l now c.trusted = c.trusted := by
  intro l htimely
  subst hnow
  unfold Timely clockRead at htimely
  unfold clockRead
  cases ht : c.trusted with
  | false => rfl
  | true =>
    rw [ht, Bool.and_eq_true] at htimely
    simpa using htimely.2

/-! ## Status -/

theorem reconcilePresence_safe (hP : ∀ l changes, P l → P (l.apply (.setStates changes))) :
    Safe s c P reconcilePresence (fun _ => P) Fails := by
  refine .bind listSegments_calls.reads.fails fun physical =>
    .bind segmentAllocations_calls.reads.fails fun allocations => .getLedger fun l' _ _ hP' => ?_
  refine .ite (fun _ => .pure fun l _ h => h ▸ hP') fun _ => .transact (fun _ _ _ _ => trivial) ?_
    (fun _ => nofun) ?_
  · rintro l - rfl change hchange
    obtain ⟨row, hrow, hsome⟩ := List.mem_filterMap.mp hchange
    by_cases hcond : row.state = .stored ∧ (physical.get? row.id ≠ some row.length ∨
        (allocations.get? row.id).getD 0 < 512)
    · rw [if_pos hcond] at hsome
      obtain rfl := Option.some.inj hsome
      refine ⟨?_, fun other hother hid => ?_⟩
      · split_ifs
        · exact .inr (.inl rfl)
        · exact .inr (.inr rfl)
      · obtain rfl : other = row := Table.eq_of_key hother (Ledger.mem_rows.mp hrow) hid
        simp [hcond.1]
    · rw [if_neg hcond] at hsome
      cases hsome
  · rintro l - rfl
    exact hP l _ hP'

theorem budget_safe (hP : ∀ l changes, P l → P (l.apply (.setStates changes))) :
    Safe s c P (budget s profiles now trusted) (fun _ => P) Fails := by
  refine .bind (reconcilePresence_safe hP) fun _ => ?_
  have hreads : Reads s c (do
      let free ← check s 0 false
      let allocations ← segmentAllocations
      let l ← getLedger
      let m ← getMemory
      let preBytes := allocatedBytes allocations (l.rows.filter fun row =>
        row.state == .stored && row.clockTrusted && (profiles.get? row.source).isSome &&
          row.overlaps (now - pre) now)
      let eligible := if trusted then m.configuration.elim [] fun c =>
        l.selectedReclaimable now c.config else []
      let postBytes ← lift (estimate s profiles post false)
      let bothBytes ← lift (estimate s profiles (pre + post) false)
      return { filesystemFree := free
               requiredAdditional := max postBytes (bothBytes - preBytes) + s.ledgerHeadroom
               requiredPreAllocated := preBytes
               reclaimableAllocated := allocatedBytes allocations eligible
               safetyReserve := s.safetyReserveBytes, ledgerHeadroom := s.ledgerHeadroom } :
      RingM Budget) :=
    .bind check_calls.reads fun _ => .bind segmentAllocations_calls.reads fun _ =>
      .bind .getLedger fun _ => .bind .getMemory fun _ => .bind .lift fun _ => .bind .lift fun _ => .pure
  exact hreads.fails

theorem nextWriteRefused_reads {b : Budget} {atBound : Bool} : Reads s c (nextWriteRefused s k now b trusted atBound) :=
  .bind segmentAllocations_calls.reads fun _ => .bind .getLedger fun _ => .pure

theorem statusState_reads {b : Budget} {pressure : Bool} {ordinary orphan : Nat} :
    Reads s c (statusState s k now trusted b pressure ordinary orphan) := by
  refine .ite .pure (.bind nextWriteRefused_reads fun _ => .ite .pure (.ite .pure (.ite .pure
    (.ite .pure (.bind nextWriteRefused_reads fun _ => .ite .pure ?_)))))
  exact .bind .getLedger fun _ => .bind .getMemory fun _ => .pure

theorem statusCapacity_reads : Reads s c (statusCapacity s k now) := by
  refine .bind .getLedger fun l => ?_
  split
  · exact .pure
  · exact .pure
  · exact .fail

theorem statusConfigured_safe (hP : ∀ l changes, P l → P (l.apply (.setStates changes))) :
    Safe s c P (statusConfigured s k now trusted) (fun _ => P) Fails := by
  refine .bind (Reads.ledgerTurn.fails) fun _ => .bind (Reads.getLedger.fails) fun l' =>
    .bind (budget_safe hP) fun b => .bind (statusCapacity_reads.fails) fun (pressure, required) =>
    .bind segmentAllocations_calls.reads.fails fun _ => .bind (Reads.getLedger.fails) fun _ =>
    .bind (statusState_reads.fails) fun _ => .bind .setStatus fun _ => ?_
  exact .bind Reads.lift.fails fun _ => .bind Reads.lift.fails fun _ => .bind Reads.lift.fails fun _ =>
    .bind Reads.lift.fails fun _ => .pure fun _ _ h => h

theorem statusAt_safe : Safe s c Anything (statusAt s now trusted) (fun _ => Anything) Fails := by
  refine .getMemory fun m => ?_
  cases m.configuration with
  | none => exact .pure fun _ _ _ => trivial
  | some k =>
    refine .bind ((statusConfigured_safe (P := Anything) fun _ _ _ => trivial).strengthen
      fun _ _ _ => trivial) fun _ => .pure fun _ _ _ => trivial

end Sentinel.Ring
