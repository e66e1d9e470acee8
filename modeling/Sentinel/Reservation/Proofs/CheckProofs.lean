import Sentinel.Reservation.Check

/-!
# Proofs: the session gate

Locks come first: a thread stands inside a lock exactly when it holds it. From that, a check that has
closed access keeps it closed until it publishes, and a thread in the block of `admit` sees the verdict
and the epoch it was let in with.
-/

namespace Sentinel.Reservation

variable {next : Gate × Pc} {e : Nat}

section Advance

variable {hasRevoker here : Bool} {g g' : Gate} {pc pc' : Pc} {m : Move} {shown : Option Action}

/-- The point belongs to a request that is between calls, or to no call. -/
def Pc.outside (pc : Pc) : Prop := pc = .idle ∨ pc = .working

/-- A decision of a check leaves the verdict and the epoch, and goes on with access closed or ends. -/
def Decides (g : Gate) (next : Gate × Pc) : Prop :=
  next.1.verdict = g.verdict ∧ next.1.epoch = g.epoch ∧ (next.2.shut = true ∨ next.2 = .idle)

theorem afterEvaluation_decides (kind : CheckKind) (reasons : List Reason) :
    Decides g (afterEvaluation hasRevoker g kind reasons) := by
  unfold afterEvaluation Decides
  split_ifs <;> simp [Pc.shut]

theorem Gate.markerFailed_same (g : Gate) : g.markerFailed.verdict = g.verdict ∧ g.markerFailed.epoch = g.epoch := by
  unfold Gate.markerFailed
  split <;> exact ⟨rfl, rfl⟩

theorem afterMarker_decides (kind : CheckKind) (reasons : List Reason) (outcome : Outcome) :
    Decides g (afterMarker g kind reasons outcome) := by
  unfold afterMarker Decides
  cases outcome with
  | done => simp [Pc.shut]
  | raised committed =>
    split_ifs <;> simp [Pc.shut, Gate.markerFailed_same]
  | interrupted committed => simp

theorem afterFallback_decides (kind : CheckKind) (reasons : List Reason) (outcome : Outcome) :
    Decides g (afterFallback g kind reasons outcome) := by
  cases outcome <;> simp [afterFallback, Decides, Pc.shut]

theorem judge_decides (kind : CheckKind) (reasons : List Reason) :
    Decides g (judge g kind reasons) := by
  unfold judge Decides
  split_ifs <;> simp [Pc.shut, Gate.reopened]

theorem afterReopening_decides (kind : CheckKind) (outcome : Outcome) :
    Decides g (afterReopening g kind outcome) := by
  cases outcome <;> simp [afterReopening, Decides, Pc.shut, Gate.reopened]

theorem Outcome.shows_cases (outcome : Outcome) :
    outcome.shows = none ∨ outcome.shows = some .revoked := by
  unfold Outcome.shows
  split <;> simp

/-- What one step of a thread can do to the verdict and the epoch. -/
inductive Effect (g g' : Gate) (pc pc' : Pc) (shown : Option Action) : Prop
  /-- The step leaves the verdict and the epoch. -/
  | stays (hv : g'.verdict = g.verdict) (he : g'.epoch = g.epoch)
      (hshut : pc'.shut = true → pc.shut = true)
      (hinside : ∀ e, pc' = .inside e → pc = .inside e ∨ g.verdict.isOpen = true ∧ g.epoch = e)
      (hpublished : ∀ b, shown ≠ some (.published b)) (hclosed : shown ≠ some .closed)
  /-- `_close`. -/
  | closes (hpc : pc.holdsGate = true) (hg : g' = g.close) (hshown : shown = some .closed)
      (hinside : ∀ e, pc' ≠ .inside e)
  | publishes (hshut : pc.shut = true) (hpc : pc.holdsGate = true) (hshut' : pc'.shut = false)
      (he : g'.epoch = if g.verdict.isOpen && !g'.verdict.isOpen then g.epoch + 1 else g.epoch)
      (hshown : shown = some (.published g'.verdict.isOpen)) (hinside : ∀ e, pc' ≠ .inside e)

theorem Decides.effect (hd : Decides g next) (hshut : pc.shut = true) (hshown : shown = none ∨ shown = some .revoked) :
    Effect g next.1 pc next.2 shown := by
  obtain ⟨hv, he, hpc⟩ := hd
  refine .stays hv he (fun _ => hshut) ?_ ?_ ?_
  · intro e hin
    rcases hpc with hpc | hpc <;> rw [hin] at hpc <;> simp [Pc.shut] at hpc
  · rcases hshown with rfl | rfl <;> simp
  · rcases hshown with rfl | rfl <;> simp

theorem advance_effect (h : advance hasRevoker here g pc m = some (shown, next)) : Effect g next.1 pc next.2 shown := by
  unfold advance at h
  split at h
  all_goals try split at h
  all_goals cases h
  all_goals first
    | exact .stays rfl rfl (by simp [Pc.shut]) (by simp_all) (by simp) (by simp)
    | exact .closes rfl rfl rfl (by simp)
    | exact .publishes rfl rfl rfl rfl rfl (by simp)
    | exact (afterEvaluation_decides _ _).effect rfl (.inl rfl)
    | exact (afterMarker_decides _ _ _).effect rfl (.inl rfl)
    | exact (afterFallback_decides _ _ _).effect rfl (Outcome.shows_cases _)
    | exact (judge_decides _ _).effect rfl (.inl rfl)
    | exact (afterReopening_decides _ _).effect rfl (Outcome.shows_cases _)

theorem Effect.of_not_holdsGate (he : Effect g g' pc pc' shown) (hpc : pc.holdsGate = false) :
    g'.verdict = g.verdict ∧ g'.epoch = g.epoch := by
  cases he with
  | stays hv he => exact ⟨hv, he⟩
  | closes hgate | publishes _ hgate => exact absurd hgate (by simp [hpc])

theorem Gate.close_isOpen (g : Gate) : g.close.verdict.isOpen = false := rfl

theorem Gate.close_epoch (g : Gate) :
    g.close.epoch = if g.verdict.isOpen then g.epoch + 1 else g.epoch := by
  simp [Gate.close, Gate.publish]

theorem Effect.epoch (he : Effect g g' pc pc' shown) :
    g'.epoch = if g.verdict.isOpen && !g'.verdict.isOpen then g.epoch + 1 else g.epoch := by
  cases he with
  | stays hv he => rw [he, hv]; simp
  | closes _ hg => subst hg; rw [g.close_epoch, g.close_isOpen]; simp
  | publishes _ _ _ he => exact he

theorem Effect.opens (he : Effect g g' pc pc' shown) (hclosed : g.verdict.isOpen = false)
    (hopen : g'.verdict.isOpen = true) : pc.shut = true ∧ shown = some (.published true) := by
  cases he with
  | stays hv => rw [hv, hclosed] at hopen; exact absurd hopen (by decide)
  | closes _ hg => subst hg; exact absurd hopen (by simp [g.close_isOpen])
  | publishes hshut _ _ _ hshown => exact ⟨hshut, by rw [hshown, hopen]⟩

variable {next : Gate × Pc}

/-- Past the comparison of the process, a thread is in the process that built the gate. -/
theorem advance_here (h : advance hasRevoker here g pc m = some (shown, next)) (hpc : pc.outside)
    (hnext : ¬ next.2.outside) : here = true := by
  rcases hpc with rfl | rfl
  all_goals
    cases m <;> simp only [advance, Pc.checks, Pc.holdsCheck] at h
    all_goals try split at h
    all_goals first
      | assumption
      | (cases h; exact absurd (by simp [Pc.outside]) hnext)
      | simp at h

theorem advance_committed (h : advance hasRevoker here g pc m = some (some (.committed e), next)) : pc = .inside e := by
  unfold advance at h
  split at h
  all_goals try split at h
  all_goals first
    | (cases h; rfl)
    | simp [Outcome.shows] at h

theorem advance_epochReturned (h : advance hasRevoker here g pc m = some (some (.epochReturned (some e)), next)) :
    g.verdict.isOpen = true ∧ g.epoch = e ∧ next.1 = g := by
  unfold advance at h
  split at h
  all_goals try split at h
  all_goals first
    | (cases h; exact ⟨by assumption, rfl, rfl⟩)
    | simp [Outcome.shows] at h

theorem advance_entered (h : advance hasRevoker here g pc m = some (some (.entered e), next)) : ¬ pc.outside := by
  unfold advance at h
  split at h
  all_goals try split at h
  all_goals first
    | (simp [Pc.outside]; done)
    | simp at h

theorem advance_revoked
    (h : advance hasRevoker here g pc m = some (some .revoked, next)) : pc.shut = true := by
  unfold advance at h
  split at h
  all_goals try split at h
  all_goals first
    | rfl
    | cases h

end Advance

section Locks

variable {lock : Option Tid} {t other : Tid} {before after : Bool}

/-- A lock that was held exactly by the thread that stands inside it is so after a step. -/
theorem relock_iff_self (hbefore : before = true ↔ lock = some t) :
    after = true ↔ relock lock t before after = some t := by
  unfold relock
  by_cases hafter : after = true
  · simp [hafter]
  · by_cases hb : before = true
    · simp [hafter, hb]
    · simp only [hafter, hb, Bool.false_eq_true, if_false, false_iff]
      exact fun hlock => hb (hbefore.mpr hlock)

theorem relock_iff_other (hne : other ≠ t) (hbefore : before = true ↔ lock = some t)
    (hav : available lock t after = true) : relock lock t before after = some other ↔ lock = some other := by
  unfold relock
  by_cases hafter : after = true
  · -- the lock was free, or the thread's own
    subst hafter
    have hne' : t ≠ other := fun heq => hne heq.symm
    cases lock with
    | none => simp [hne']
    | some holder =>
      have heq : holder = t := by simpa [available] using hav
      subst heq
      simp
  · by_cases hb : before = true
    · have hlock := hbefore.mp hb
      simp [hafter, hb, hlock, hne.symm]
    · simp [hafter, hb]

end Locks

/-- What holds in every reachable state. -/
structure Inv (u : Setup) (s : State) : Prop where
  gate : ∀ t, (s.threads t).pc.holdsGate = true ↔ s.gateLock = some t
  check : ∀ t, (s.threads t).pc.holdsCheck = true ↔ s.checkLock = some t
  shut : ∀ t, (s.threads t).pc.shut = true → s.gate.verdict.isOpen = false
  inside : ∀ t e, (s.threads t).pc = .inside e → s.gate.verdict.isOpen = true ∧ s.gate.epoch = e
  home : ∀ t, ¬ (s.threads t).pc.outside → (s.threads t).pid = u.gatePid

theorem inv_initial (u : Setup) : Inv u (initial u) where
  gate _ := by simp [initial, Pc.holdsGate]
  check _ := by simp [initial, Pc.holdsCheck]
  shut _ h := absurd h (by simp [initial, Pc.shut])
  inside _ _ h := absurd h (by simp [initial])
  home _ _ := rfl

/-- One step: nothing, a step of one thread, or a fork. -/
inductive Stepped (u : Setup) (s : State) : Input → Option Action × State → Prop
  | idle (i : Input) : Stepped u s i (none, s)
  | moved {t : Tid} {m : Move} {shown : Option Action} {next : Gate × Pc}
      (hadv : advance u.hasRevoker (decide ((s.threads t).pid = u.gatePid)) s.gate (s.threads t).pc m =
        some (shown, next))
      (hgate : available s.gateLock t next.2.holdsGate = true)
      (hcheck : available s.checkLock t next.2.holdsCheck = true) :
      Stepped u s (.move t m) (shown,
        { gate := next.1
          gateLock := relock s.gateLock t (s.threads t).pc.holdsGate next.2.holdsGate
          checkLock := relock s.checkLock t (s.threads t).pc.holdsCheck next.2.holdsCheck
          threads := s.goto t next.2 })
  | forked {t child : Tid} {pid : Pid} (hidle : (s.threads child).pc = .idle)
      (hpc : (s.threads t).pc.outside) :
      Stepped u s (.fork t child pid)
        (none, { s with threads := Function.update s.threads child ⟨pid, (s.threads t).pc⟩ })

theorem stepped (u : Setup) (i : Input) (s : State) : Stepped u s i (step u i s) := by
  cases i with
  | move t m =>
    unfold step
    dsimp only
    split
    · exact .idle _
    · rename_i shown g pc' hadv
      split
      · rename_i hav
        rw [Bool.and_eq_true] at hav
        exact .moved hadv hav.1 hav.2
      · exact .idle _
  | fork t child pid =>
    unfold step
    dsimp only
    split
    · rename_i h
      exact .forked h.1 h.2.2.2
    · exact .idle _

section State

variable {u : Setup} {s : State} {t other : Tid} {pc : Pc}

theorem State.goto_self : s.goto t pc t = { s.threads t with pc := pc } := by
  simp [State.goto]

theorem State.goto_other (hne : other ≠ t) : s.goto t pc other = s.threads other := by
  simp [State.goto, hne]

theorem Pc.outside.holdsGate (h : pc.outside) : pc.holdsGate = false := by
  rcases h with rfl | rfl <;> rfl

theorem Pc.outside.holdsCheck (h : pc.outside) : pc.holdsCheck = false := by
  rcases h with rfl | rfl <;> rfl

theorem Pc.outside.shut (h : pc.outside) : pc.shut = false := by
  rcases h with rfl | rfl <;> rfl

theorem Pc.outside.ne_inside (h : pc.outside) (e : Nat) : pc ≠ .inside e := by
  rcases h with rfl | rfl <;> simp

theorem Pc.holdsCheck_of_shut (h : pc.shut = true) : pc.holdsCheck = true := by
  cases pc <;> simp_all [Pc.shut, Pc.holdsCheck]

theorem Inv.gate_unique (hI : Inv u s) (ht : (s.threads t).pc.holdsGate = true)
    (hother : (s.threads other).pc.holdsGate = true) : other = t := by
  have h1 := (hI.gate t).mp ht
  have h2 := (hI.gate other).mp hother
  exact Option.some.inj (h2.symm.trans h1)

theorem Inv.check_unique (hI : Inv u s) (ht : (s.threads t).pc.holdsCheck = true)
    (hother : (s.threads other).pc.holdsCheck = true) : other = t := by
  have h1 := (hI.check t).mp ht
  have h2 := (hI.check other).mp hother
  exact Option.some.inj (h2.symm.trans h1)

theorem Inv.moved {m : Move} {shown : Option Action} (hI : Inv u s)
    (hadv : advance u.hasRevoker (decide ((s.threads t).pid = u.gatePid)) s.gate (s.threads t).pc m = some (shown, next))
    (hgate : available s.gateLock t next.2.holdsGate = true) (hcheck : available s.checkLock t next.2.holdsCheck = true) :
    Inv u { gate := next.1
            gateLock := relock s.gateLock t (s.threads t).pc.holdsGate next.2.holdsGate
            checkLock := relock s.checkLock t (s.threads t).pc.holdsCheck next.2.holdsCheck
            threads := s.goto t next.2 } := by
  have heff := advance_effect hadv
  refine ⟨fun x => ?_, fun x => ?_, fun x hx => ?_, fun x e hx => ?_, fun x hx => ?_⟩
  · by_cases hxt : x = t
    · subst hxt
      simp only [State.goto_self]
      exact relock_iff_self (hI.gate x)
    · simp only [State.goto_other hxt]
      exact (hI.gate x).trans (relock_iff_other hxt (hI.gate t) hgate).symm
  · by_cases hxt : x = t
    · subst hxt
      simp only [State.goto_self]
      exact relock_iff_self (hI.check x)
    · simp only [State.goto_other hxt]
      exact (hI.check x).trans (relock_iff_other hxt (hI.check t) hcheck).symm
  · by_cases hxt : x = t
    · subst hxt
      simp only [State.goto_self] at hx
      cases heff with
      | stays hv _ hshut => exact hv ▸ hI.shut x (hshut hx)
      | closes _ hg => exact hg ▸ s.gate.close_isOpen
      | publishes _ _ hshut => exact absurd hx (by simp [hshut])
    · simp only [State.goto_other hxt] at hx
      have hclosed := hI.shut x hx
      -- if the step opened access, two threads would stand inside the check lock
      by_contra hopen
      have hshut := (heff.opens hclosed (by simpa using hopen)).1
      exact hxt (hI.check_unique (Pc.holdsCheck_of_shut hshut) (Pc.holdsCheck_of_shut hx))
  · by_cases hxt : x = t
    · subst hxt
      simp only [State.goto_self] at hx
      cases heff with
      | stays hv he _ hinside =>
        rw [hv, he]
        rcases hinside e hx with h | h
        · exact hI.inside x e h
        · exact h
      | closes _ _ _ hinside | publishes _ _ _ _ _ hinside => exact absurd hx (hinside e)
    · simp only [State.goto_other hxt] at hx
      have hheld : (s.threads x).pc.holdsGate = true := by rw [hx]; rfl
      have hfree : (s.threads t).pc.holdsGate = false := by
        by_contra h
        exact hxt (hI.gate_unique (by simpa using h) hheld)
      obtain ⟨hv, he⟩ := heff.of_not_holdsGate hfree
      rw [hv, he]
      exact hI.inside x e hx
  · by_cases hxt : x = t
    · subst hxt
      simp only [State.goto_self] at hx ⊢
      by_cases hout : (s.threads x).pc.outside
      · exact of_decide_eq_true (advance_here hadv hout hx)
      · exact hI.home x hout
    · simp only [State.goto_other hxt] at hx ⊢
      exact hI.home x hx

theorem Inv.forked {child : Tid} {pid : Pid} (hI : Inv u s) (hidle : (s.threads child).pc = .idle)
    (hpc : pc.outside) : Inv u { s with threads := Function.update s.threads child ⟨pid, pc⟩ } := by
  have hchild : (s.threads child).pc.outside := .inl hidle
  refine ⟨fun x => ?_, fun x => ?_, fun x hx => ?_, fun x e hx => ?_, fun x hx => ?_⟩
  all_goals by_cases hxc : x = child
  · subst hxc
    simpa [hpc.holdsGate, hchild.holdsGate] using hI.gate x
  · simpa [hxc] using hI.gate x
  · subst hxc
    simpa [hpc.holdsCheck, hchild.holdsCheck] using hI.check x
  · simpa [hxc] using hI.check x
  · subst hxc
    simp [hpc.shut] at hx
  · simp only [Function.update_of_ne hxc] at hx
    exact hI.shut x hx
  · subst hxc
    simp only [Function.update_self] at hx
    exact absurd hx (hpc.ne_inside e)
  · simp only [Function.update_of_ne hxc] at hx
    exact hI.inside x e hx
  · subst hxc
    simp only [Function.update_self] at hx
    exact absurd hpc hx
  · simp only [Function.update_of_ne hxc] at hx ⊢
    exact hI.home x hx

variable {i : Input} {r : Option Action × State}

theorem Stepped.inv (h : Stepped u s i r) (hI : Inv u s) : Inv u r.2 := by
  cases h with
  | idle => exact hI
  | moved hadv hgate hcheck => exact hI.moved hadv hgate hcheck
  | forked hidle hpc => exact hI.forked hidle hpc

theorem Stepped.epoch (h : Stepped u s i r) : r.2.gate.epoch =
    if s.gate.verdict.isOpen && !r.2.gate.verdict.isOpen then s.gate.epoch + 1 else s.gate.epoch := by
  cases h with
  | idle => simp
  | moved hadv => exact (advance_effect hadv).epoch
  | forked => simp

theorem Stepped.opens (h : Stepped u s i r) (hclosed : s.gate.verdict.isOpen = false)
    (hopen : r.2.gate.verdict.isOpen = true) : r.1 = some (.published true) := by
  cases h with
  | idle => exact absurd hopen (by simp [hclosed])
  | moved hadv => exact ((advance_effect hadv).opens hclosed hopen).2
  | forked => exact absurd hopen (by simp [hclosed])

theorem Stepped.shut (h : Stepped u s i r) (hshut : (r.2.threads t).pc.shut = true) :
    (s.threads t).pc.shut = true ∨ i.isOf t = true ∧ r.1 = some .closed := by
  cases h with
  | idle => exact .inl hshut
  | @moved x m shown next hadv =>
    by_cases hxt : t = x
    · subst hxt
      simp only [State.goto_self] at hshut
      cases advance_effect hadv with
      | stays _ _ hback => exact .inl (hback hshut)
      | closes _ _ hshown => exact .inr ⟨by simp [Input.isOf], hshown⟩
      | publishes hback => exact .inl hback
    · simp only [State.goto_other hxt] at hshut
      exact .inl hshut
  | @forked x child pid hidle hpc =>
    by_cases hxc : t = child
    · subst hxc
      simp only [Function.update_self] at hshut
      exact absurd hshut (by simp [hpc.shut])
    · simp only [Function.update_of_ne hxc] at hshut
      exact .inl hshut

theorem Stepped.shown {action : Action} (h : Stepped u s i r) (hshown : r.1 = some action) :
    ∃ t m next, i = .move t m ∧ r.2.gate = next.1 ∧
      advance u.hasRevoker (decide ((s.threads t).pid = u.gatePid)) s.gate (s.threads t).pc m =
        some (some action, next) := by
  cases h with
  | idle => exact absurd hshown (by simp)
  | @moved x m shown next hadv =>
    dsimp only at hshown
    exact ⟨x, m, next, rfl, rfl, hshown ▸ hadv⟩
  | forked => exact absurd hshown (by simp)

theorem Stepped.committed (h : Stepped u s i r) (hI : Inv u s) (hshown : r.1 = some (.committed e)) :
    s.gate.verdict.isOpen = true ∧ s.gate.epoch = e := by
  obtain ⟨t, m, next, -, -, hadv⟩ := h.shown hshown
  exact hI.inside t e (advance_committed hadv)

theorem Stepped.epochReturned (h : Stepped u s i r) (hshown : r.1 = some (.epochReturned (some e))) :
    s.gate.verdict.isOpen = true ∧ s.gate.epoch = e ∧ r.2.gate = s.gate := by
  obtain ⟨t, m, next, -, hgate, hadv⟩ := h.shown hshown
  obtain ⟨hopen, hepoch, hnext⟩ := advance_epochReturned hadv
  exact ⟨hopen, hepoch, hgate.trans hnext⟩

theorem Stepped.entered (h : Stepped u s i r) (hI : Inv u s) (hshown : r.1 = some (.entered e)) :
    ∃ t m, i = .move t m ∧ (s.threads t).pid = u.gatePid := by
  obtain ⟨t, m, next, rfl, -, hadv⟩ := h.shown hshown
  exact ⟨t, m, rfl, hI.home t (advance_entered hadv)⟩

theorem Stepped.revoked (h : Stepped u s i r) (hshown : r.1 = some .revoked) :
    ∃ t, i.isOf t = true ∧ (s.threads t).pc.shut = true ∧ r.2.gate.verdict = s.gate.verdict := by
  obtain ⟨t, m, next, rfl, hgate, hadv⟩ := h.shown hshown
  refine ⟨t, by simp [Input.isOf], advance_revoked hadv, ?_⟩
  rw [hgate]
  cases advance_effect hadv with
  | stays hv => exact hv
  | closes _ _ hclosed => exact absurd hclosed (by simp)
  | publishes _ _ _ _ hpublished => exact absurd hpublished (by simp)

end State

section Runs

variable {u : Setup} {h later earlier between : History} {s : State}
  {E K R : Event State Input (Option Action)}

theorem inv_of_reaches (hs : Reaches (step u) (initial u) h s) : Inv u s :=
  hs.invariant (inv_initial u) fun i s => (stepped u i s).inv

theorem epoch_after (hs : Reaches (step u) (initial u) (later ++ E :: earlier) s) :
    E.after.gate.epoch ≤ s.gate.epoch ∧
      ((∃ X ∈ later, Closes X) → E.after.gate.epoch < s.gate.epoch) := by
  refine hs.since (P := fun later s => E.after.gate.epoch ≤ s.gate.epoch ∧
    ((∃ X ∈ later, Closes X) → E.after.gate.epoch < s.gate.epoch)) ⟨le_rfl, by simp⟩ ?_
  rintro later s i - ⟨hle, hlt⟩
  have hstep := (stepped u i s).epoch
  have hmono : s.gate.epoch ≤ (step u i s).2.gate.epoch := by
    rw [hstep]
    split <;> omega
  refine ⟨hle.trans hmono, ?_⟩
  rintro ⟨X, hX, hcloses⟩
  rcases List.mem_cons.mp hX with rfl | hX
  · -- the latest step closes an open verdict
    obtain ⟨hbefore, hafter⟩ := hcloses
    simp only [Event.of] at hbefore hafter
    rw [hbefore, hafter] at hstep
    simp only [Bool.not_false, Bool.and_self, if_true] at hstep
    omega
  · have := hlt ⟨X, hX, hcloses⟩
    omega

theorem open_after (hs : Reaches (step u) (initial u) (later ++ E :: earlier) s)
    (hopen : E.after.gate.verdict.isOpen = true) (hkeeps : ∀ X ∈ later, ¬ Closes X) :
    s.gate.verdict.isOpen = true := by
  refine hs.since (P := fun later s => (∀ X ∈ later, ¬ Closes X) → s.gate.verdict.isOpen = true) (fun _ => hopen) ?_ hkeeps
  intro later s i _ ih hkeeps
  obtain ⟨hlast, hkeeps⟩ := List.forall_mem_cons.1 hkeeps
  by_contra hafter
  exact hlast ⟨ih hkeeps, by simpa [Event.of] using hafter⟩

/-- A verdict that was closed and is open has been published as open in between. -/
theorem published_between (hs : Reaches (step u) (initial u) (later ++ E :: earlier) s)
    (hclosed : E.after.gate.verdict.isOpen = false) (hopen : s.gate.verdict.isOpen = true) :
    ∃ l P l', later = l ++ P :: l' ∧ P.output = some (.published true) := by
  refine hs.since (P := fun later s => s.gate.verdict.isOpen = true →
    ∃ l P l', later = l ++ P :: l' ∧ P.output = some (.published true)) (by simp [hclosed]) ?_ hopen
  intro later s i _ ih hopen
  by_cases hbefore : s.gate.verdict.isOpen = true
  · obtain ⟨l, P, l', rfl, hP⟩ := ih hbefore
    exact ⟨_ :: l, P, l', rfl, hP⟩
  · exact ⟨[], _, later, rfl, (stepped u i s).opens (by simpa using hbefore) hopen⟩

/-- A thread that has closed access did so in a step of its own, and access was closed since. -/
theorem closed_since (hs : Reaches (step u) (initial u) h s) {t : Tid}
    (hshut : (s.threads t).pc.shut = true) :
    ∃ between X before, h = between ++ X :: before ∧ X.input.isOf t = true ∧
      X.output = some .closed ∧ ∀ e ∈ between, e.before.gate.verdict.isOpen = false := by
  induction hs with
  | start => exact absurd hshut (by simp [initial, Pc.shut])
  | @next h s' hs i ih =>
    rcases (stepped u i s').shut hshut with hbefore | ⟨hof, hclosed⟩
    · obtain ⟨between, X, before, rfl, hX, hout, hbetween⟩ := ih hbefore
      refine ⟨_ :: between, X, before, rfl, hX, hout, ?_⟩
      intro e he
      rcases List.mem_cons.mp he with rfl | he
      · exact (inv_of_reaches hs).shut t hbefore
      · exact hbetween e he
    · exact ⟨[], _, h, rfl, hof, hclosed, fun e he => absurd he List.not_mem_nil⟩

/-- A commit in the block of `admit` happens while the verdict is open, and no step since a call of
`epoch` that returned its epoch closed an open verdict. -/
theorem commit_open (hs : Reaches (step u) (initial u) (later ++ K :: earlier) s) (hK : K.output = some (.committed e)) :
    K.before.gate.verdict.isOpen = true ∧ K.before.gate.epoch = e := by
  obtain ⟨hbefore, hstep⟩ := hs.event
  rw [hstep] at hK
  exact (stepped u K.input K.before).committed (inv_of_reaches hbefore) hK

theorem kept_open (hs : Reaches (step u) (initial u) (later ++ E :: earlier) s) (hE : E.output = some (.epochReturned (some e)))
    (hepoch : s.gate.epoch = e) : E.before.gate.verdict.isOpen = true ∧ E.after.gate.verdict.isOpen = true ∧
      ∀ X ∈ later, ¬ Closes X := by
  obtain ⟨-, hstep⟩ := hs.event
  rw [hstep] at hE
  obtain ⟨hopen, hbefore, hgate⟩ := (stepped u E.input E.before).epochReturned hE
  have hafter : E.after.gate = E.before.gate := by
    rw [hstep]
    exact hgate
  refine ⟨hopen, hafter ▸ hopen, fun X hX hcloses => ?_⟩
  have hlt := (epoch_after hs).2 ⟨X, hX, hcloses⟩
  rw [hafter, hbefore, hepoch] at hlt
  exact lt_irrefl _ hlt

/-- The epoch of a commit after a step in a closed period was returned after a verdict that was
published as open since. -/
theorem epoch_after_closed {l l' m m' : History} (hs : Reaches (step u) (initial u) (l ++ K :: (l' ++ R :: earlier)) s)
    (hK : K.output = some (.committed e)) (hclosed : R.before.gate.verdict.isOpen = false)
    (hafter : R.after.gate.verdict.isOpen = false) (hcut : l' ++ R :: earlier = m ++ E :: m')
    (hE : E.output = some (.epochReturned (some e))) :
    ∃ n P n', l' = m ++ E :: (n ++ P :: n') ∧ P.output = some (.published true) := by
  have hepoch := (commit_open hs hK).2
  have hbefore := hs.event.1
  have hearlier := hbefore.event.1
  obtain ⟨hopen, hopen', hkeeps⟩ := kept_open (hcut ▸ hbefore) hE hepoch
  have hne : E ≠ R := by
    rintro rfl
    rw [hclosed] at hopen
    exact absurd hopen (by decide)
  -- the call of `epoch` lies before or after the step
  rcases List.append_eq_append_iff.mp hcut with ⟨k, rfl, hk⟩ | ⟨k, rfl, hk⟩
  · cases k with
    | nil => exact absurd (List.cons.inj hk).1.symm hne
    | cons R' k =>
      obtain ⟨rfl, hk'⟩ := List.cons.inj hk
      rw [hk'] at hearlier
      have := open_after hearlier hopen' fun X hX => hkeeps X (by simp [hX])
      rw [hclosed] at this
      exact absurd this (by decide)
  · cases k with
    | nil => exact absurd (List.cons.inj hk).1 hne
    | cons E' k =>
      obtain ⟨rfl, rfl⟩ := List.cons.inj hk
      rw [List.append_assoc, List.cons_append] at hbefore
      obtain ⟨n, P, n', rfl, hP⟩ := published_between hbefore.event.1 hafter hopen
      exact ⟨n, P, n', rfl, hP⟩

/-- The session gate is linearizable. A commit in the block of `admit` happens while the verdict is
open, and no open verdict was closed since the call of `epoch` that returned its epoch. A revocation of
a check has a close of that check before it with no commit in between, and a commit after it has its
epoch from after a verdict that was published as open after the revocation. No block of `admit` is
entered in another process than the one that built the gate. -/
theorem gate_linearizable (u : Setup) (h : History) (s : State)
    (hs : Reaches (step u) (initial u) h s) :
    (∀ later K earlier e, h = later ++ K :: earlier → K.output = some (.committed e) →
      K.before.gate.verdict.isOpen = true ∧
      ∀ between E before, earlier = between ++ E :: before →
        E.output = some (.epochReturned (some e)) → ∀ X ∈ between, ¬ Closes X) ∧
    (∀ later R earlier, h = later ++ R :: earlier → R.output = some .revoked →
      ∃ t between X before, R.input.isOf t = true ∧ earlier = between ++ X :: before ∧
        X.input.isOf t = true ∧ X.output = some .closed ∧
        (∀ K ∈ between, ∀ e, K.output ≠ some (.committed e)) ∧
        ∀ l K l' e, later = l ++ K :: l' → K.output = some (.committed e) →
          ∀ m E m', l' ++ R :: earlier = m ++ E :: m' → E.output = some (.epochReturned (some e)) →
            ∃ n P n', l' = m ++ E :: (n ++ P :: n') ∧ P.output = some (.published true)) ∧
    (∀ e ∈ h, ∀ n, e.output = some (.entered n) →
      ∃ t m, e.input = .move t m ∧ (e.before.threads t).pid = u.gatePid) := by
  refine ⟨?_, ?_, ?_⟩
  · rintro later K earlier e rfl hK
    obtain ⟨hopen, hepoch⟩ := commit_open hs hK
    refine ⟨hopen, ?_⟩
    rintro between E before rfl hE
    exact (kept_open hs.event.1 hE hepoch).2.2
  · rintro later R earlier rfl hR
    obtain ⟨hearlier, hstep⟩ := hs.event
    obtain ⟨t, hof, hshut, hverdict⟩ := (stepped u R.input R.before).revoked (hstep ▸ hR)
    obtain ⟨between, X, before, rfl, hX, hout, hbetween⟩ := closed_since hearlier hshut
    have hclosed : R.before.gate.verdict.isOpen = false := (inv_of_reaches hearlier).shut t hshut
    have hafter : R.after.gate.verdict.isOpen = false := by
      rw [hstep]
      exact hverdict ▸ hclosed
    refine ⟨t, between, X, before, hof, rfl, hX, hout, ?_, ?_⟩
    · intro K hK e hcommitted
      obtain ⟨l, l', rfl⟩ := List.append_of_mem hK
      rw [List.append_assoc, List.cons_append] at hearlier
      have hopen := (commit_open hearlier hcommitted).1
      rw [hbetween K (by simp)] at hopen
      exact absurd hopen (by decide)
    · rintro l K l' e rfl hK m E m' hcut hE
      rw [List.append_assoc, List.cons_append] at hs
      exact epoch_after_closed hs hK hclosed hafter hcut hE
  · intro e he n hentered
    obtain ⟨earlier, hbefore, hstep⟩ := hs.event_of_mem he
    exact (stepped u e.input e.before).entered (inv_of_reaches hbefore) (hstep ▸ hentered)

end Runs

/-- A startup that finds the exposure marker revokes the sessions and opens; a request then commits. -/
def revokedOpening : List Input :=
  [.callCheck .startup, .next, .stored (some true), .next, .next, .next, .found [], .next, .next, .next,
    .wrote .done, .next, .next, .next].map (.move 0) ++
  [.callEpoch, .next, .next, .callAdmit (some 0), .next, .next, .commit, .leave].map (.move 1)

theorem gate_linearizable_revokedOpening :
    let run := perform (step ⟨7, true⟩) (initial ⟨7, true⟩) revokedOpening
    (∃ R ∈ run.1, R.output = some .revoked) ∧ (∃ K ∈ run.1, K.output = some (.committed 0)) ∧
      ∀ later K earlier e, run.1 = later ++ K :: earlier → K.output = some (.committed e) →
        K.before.gate.verdict.isOpen = true ∧
        ∀ between E before, earlier = between ++ E :: before →
          E.output = some (.epochReturned (some e)) → ∀ X ∈ between, ¬ Closes X :=
  ⟨by decide +kernel, by decide +kernel, (gate_linearizable _ _ _ (.perform _ _ _)).1⟩

/-- In every interleaving at most one thread stands inside the gate lock and one inside the check lock. While a thread is inside
of `admit`, the verdict is open at its epoch, and no thread is between the close of its check and the verdict. -/
theorem admit_block_exclusive (u : Setup) (inputs : List Input) :
    let s := (perform (step u) (initial u) inputs).2
    (∀ t t', (s.threads t).pc.holdsGate = true → (s.threads t').pc.holdsGate = true → t' = t) ∧
    (∀ t t', (s.threads t).pc.holdsCheck = true → (s.threads t').pc.holdsCheck = true → t' = t) ∧
    ∀ t e, (s.threads t).pc = .inside e → s.gate.verdict.isOpen = true ∧ s.gate.epoch = e ∧ ∀ t', (s.threads t').pc.shut = false := by
  intro s
  have hI : Inv u s := inv_of_reaches (.perform _ _ _)
  refine ⟨fun t t' => hI.gate_unique, fun t t' => hI.check_unique, ?_⟩
  intro t e hinside
  obtain ⟨hopen, hepoch⟩ := hI.inside t e hinside
  refine ⟨hopen, hepoch, fun t' => ?_⟩
  rw [← Bool.not_eq_true]
  intro hshut
  rw [hI.shut t' hshut] at hopen
  cases hopen

end Sentinel.Reservation
