import Mathlib
import Sentinel.Monitoring.Access

/-!
# Access notifications alternate and agree with the state

`Accessed` says what the access part of a drain does. The rest of a drain leaves the access state alone.
-/

namespace Sentinel.Monitoring.Access

open Monitor

/-! ## One drain -/

/-- What the access notifications depend on, apart from the reasons. -/
structure Face where
  current : Health
  notified : Health
  unreportedFault : Bool
  sent : Window

def Monitor.face (m : Monitor) : Face := ⟨m.current, m.notified, m.unreportedFault, m.sent⟩

/-- What the window still has at the time. -/
abbrev Face.window (f : Face) (settings : Settings) (t : ℚ) : Window := (windowOpen f.sent settings.accessBudget (some t)).2

/-- The budget is open at the time, and the service accepts. -/
abbrev Face.free (f : Face) (settings : Settings) (t : ℚ) (accepts : Bool) : Bool :=
  (windowOpen f.sent settings.accessBudget (some t)).1 && accepts

section Drain

variable {settings : Settings} {m : Monitor} {now : Option ℚ} {accepts : Bool} {rounds : Nat → Round}

theorem notify_face (m : Monitor) (kind : Kind) (event : Option EventId) (accepts : Bool) :
    (m.notify kind event accepts).2.face = m.face := by
  unfold notify
  dsimp only
  cases m.attempts kind <;> cases event <;> cases accepts <;> rfl

theorem notify_isSome (m : Monitor) (kind : Kind) (event : Option EventId) (accepts : Bool) :
    (m.notify kind event accepts).1.isSome = accepts := by
  unfold notify
  dsimp only
  cases accepts <;> rfl

theorem findingRound_face (m : Monitor) (round : Round) : (m.findingRound settings now round).2.face = m.face := by
  unfold findingRound
  dsimp only
  split
  case isFalse => rfl
  have hface := notify_face (roundEvent { m with findingSent := (windowOpen m.findingSent settings.findingBudget now).2 }
    (m.findingsBatched || m.findingsPending == 1) round).2 .credentialFinding
    (roundEvent { m with findingSent := (windowOpen m.findingSent settings.findingBudget now).2 }
      (m.findingsBatched || m.findingsPending == 1) round).1 round.accepts
  split <;> rename_i hnotify <;> rw [hnotify] at hface
  · exact hface
  · dsimp only [covered]
    split <;> exact hface

theorem findingLoop_face (fuel i : Nat) (m : Monitor) : (findingLoop settings now rounds fuel i m).2.face = m.face := by
  induction fuel generalizing i m with
  | zero => rfl
  | succ fuel ih =>
    have hround := @findingRound_face settings now m (rounds i)
    unfold findingLoop
    split
    · rfl
    split <;> rename_i heq <;> rw [heq] at hround
    · exact hround
    · exact (ih _ _).trans hround

/-- An access notification is accepted exactly when the budget is open and the service accepts. -/
theorem sendAccess_spec (m : Monitor) (kind : Kind) (t : ℚ) :
    let r := m.sendAccess settings kind (some t) accepts
    (r.1 = false ∧ m.face.free settings t accepts = false ∧ r.2.face = { m.face with sent := m.face.window settings t }) ∨
      (r.1 = true ∧ m.face.free settings t accepts = true ∧
        ∃ event, r.2.face = { m.face with sent := m.face.window settings t ++ [(t, event)] }) := by
  unfold sendAccess
  dsimp only
  by_cases hopen : (windowOpen m.sent settings.accessBudget (some t)).1 = true
  case neg =>
    rw [if_neg hopen]
    exact .inl ⟨rfl, by simp [Face.free, face, Bool.eq_false_iff.2 hopen], rfl⟩
  rw [if_pos hopen]
  have hface := notify_face { m with sent := (windowOpen m.sent settings.accessBudget (some t)).2 } kind none accepts
  have hsome := notify_isSome { m with sent := (windowOpen m.sent settings.accessBudget (some t)).2 } kind none accepts
  split <;> rename_i hnotify <;> rw [hnotify] at hface hsome
  · exact .inl ⟨rfl, by simp [Face.free, ← hsome], hface⟩
  · rename_i event m'
    refine .inr ⟨rfl, by simp [Face.free, face, hopen, ← hsome], event, ?_⟩
    simp only [face, Face.mk.injEq] at hface ⊢
    obtain ⟨hcurrent, hnotified, hunreported, hsent⟩ := hface
    exact ⟨hcurrent, hnotified, hunreported, by rw [hsent]; rfl⟩

/-- A fault that was found and not notified is remembered as such. -/
structure Consistent (f : Face) : Prop where
  unreported : f.unreportedFault = true → f.notified = .healthy
  current : f.current = .fault → f.notified = .healthy → f.unreportedFault = true

/-- What the access part of a drain does at the time `t`: nothing is accepted, and nothing was to be sent if the budget is open
and the service accepts; or a fault or a recovery is accepted. -/
inductive Accessed (settings : Settings) (f : Face) (t : ℚ) (accepts : Bool) : Option Kind → Face → Prop
  | held (sent : Window) (hsent : sent = f.sent ∨ sent = f.window settings t)
      (hdone : f.free settings t accepts = true → f.unreportedFault = false ∧ f.current = f.notified) :
    Accessed settings f t accepts none { f with sent := sent }
  | fault (event : EventId) (hopen : f.free settings t accepts = true) :
    Accessed settings f t accepts (some .humanAccessFault)
      ⟨f.current, .fault, false, f.window settings t ++ [(t, event)]⟩
  | recovered (event : EventId) (hopen : f.free settings t accepts = true)
      (hcurrent : f.current = .healthy) (hnotified : f.notified = .fault) (hreported : f.unreportedFault = false) :
    Accessed settings f t accepts (some .humanAccessRecovered)
      ⟨f.current, .healthy, false, f.window settings t ++ [(t, event)]⟩

theorem health_cases (h : Health) : h = .healthy ∨ h = .fault := by cases h <;> simp

theorem sendAccess_cases {kind : Kind} {t : ℚ} {g : Monitor → Monitor} {P : Option Kind → Face → Prop}
    (hheld : m.face.free settings t accepts = false → P none { m.face with sent := m.face.window settings t })
    (hsent : ∀ m' event, m.face.free settings t accepts = true →
      m'.face = { m.face with sent := m.face.window settings t ++ [(t, event)] } →
      P (some kind) (g m').face) :
    let r := match m.sendAccess settings kind (some t) accepts with
      | (true, m') => (some kind, g m')
      | (false, m') => (none, m')
    P r.1 r.2.face := by
  rcases @sendAccess_spec settings accepts m kind t with ⟨hr, hopen, hface⟩ | ⟨hr, hopen, event, hface⟩
  all_goals
    generalize m.sendAccess settings kind (some t) accepts = r at hr hface ⊢
    obtain ⟨sent, m'⟩ := r
    cases hr
  · dsimp only at hface ⊢
    rw [hface]
    exact hheld hopen
  · exact hsent m' event hopen hface

theorem accessNotifications_accessed (hm : Consistent m.face) (t : ℚ) :
    Accessed settings m.face t accepts (m.accessNotifications settings (some t) accepts).1
      (m.accessNotifications settings (some t) accepts).2.face := by
  have hheld (hclosed : m.face.free settings t accepts = false) :
      Accessed settings m.face t accepts none { m.face with sent := m.face.window settings t } :=
    .held _ (.inr rfl) fun hopen => absurd (hopen.symm.trans hclosed) (by simp)
  unfold accessNotifications
  by_cases hfirst : m.unreportedFault = true ∧ m.notified ≠ .fault
  · rw [if_pos hfirst]
    refine sendAccess_cases hheld ?_
    intro m' event hopen hface
    simp only [face, Face.mk.injEq] at hface ⊢
    obtain ⟨hcurrent, _, _, hsent⟩ := hface
    rw [hcurrent, hsent]
    exact .fault event hopen
  have hreported : m.unreportedFault = false := by
    by_contra hun
    have hun : m.unreportedFault = true := by simpa using hun
    exact hfirst ⟨hun, by rw [show m.notified = .healthy from hm.unreported hun]; simp⟩
  have hnotified (hcurrent : m.current = .fault) : m.notified = .fault := by
    rcases health_cases m.notified with h | h
    · exact absurd (hm.current hcurrent h) (by simp [face, hreported])
    · exact h
  rw [if_neg hfirst]
  by_cases hsecond : m.current = .fault ∧ m.newReasons = true
  · rw [if_pos hsecond]
    refine sendAccess_cases hheld ?_
    intro m' event hopen hface
    simp only [face, Face.mk.injEq] at hface ⊢
    obtain ⟨hcurrent, hsame, hunreported, hsent⟩ := hface
    rw [hcurrent, hsame.trans (hnotified hsecond.1), hunreported.trans hreported, hsent]
    exact .fault event hopen
  rw [if_neg hsecond]
  by_cases hthird : m.current = .healthy ∧ m.notified = .fault
  · rw [if_pos hthird]
    refine sendAccess_cases hheld ?_
    intro m' event hopen hface
    simp only [face, Face.mk.injEq] at hface ⊢
    obtain ⟨hcurrent, _, hunreported, hsent⟩ := hface
    rw [hcurrent, hunreported.trans hreported, hsent]
    exact .recovered event hopen hthird.1 hthird.2 hreported
  · rw [if_neg hthird]
    refine .held m.sent (.inl rfl) fun _ => ⟨hreported, ?_⟩
    rcases health_cases m.current with hcurrent | hcurrent
    · rcases health_cases m.notified with h | h
      · exact hcurrent.trans h.symm
      · exact absurd ⟨hcurrent, h⟩ hthird
    · exact hcurrent.trans (hnotified hcurrent).symm

/-- A drain finds a fault. -/
def Monitor.finds (m : Monitor) (polled : Option Health) : Bool := m.latched || polled == some .fault

/-- How a drain begins: a fault that it finds is unreported unless it was notified. -/
theorem observe_face (m : Monitor) (polled : Option Health) :
    (m.finds polled = true ∧
      (m.observe polled now).face = ⟨.fault, m.notified, m.unreportedFault || m.notified ≠ .fault, m.sent⟩) ∨
    (m.finds polled = false ∧ ∃ current, (current = m.current ∨ current = .healthy) ∧
      (m.observe polled now).face = { m.face with current := current }) := by
  unfold observe Monitor.finds
  dsimp only
  by_cases hfinds : (m.latched || polled == some .fault) = true
  · rw [if_pos hfinds]
    refine .inl ⟨hfinds, ?_⟩
    split_ifs <;> rfl
  · rw [if_neg hfinds]
    refine .inr ⟨Bool.eq_false_iff.2 hfinds, ?_⟩
    split_ifs
    all_goals first | exact ⟨_, .inl rfl, rfl⟩ | exact ⟨_, .inr rfl, rfl⟩

/-- One drain: the face that it observes, and what its access part does with it. -/
theorem drain_accessed (hm : Consistent m.face) (polled : Option Health) (t : ℚ) :
    let r := step settings (.drain polled (some t) accepts rounds) m
    ∃ f d, Consistent f ∧ f.notified = m.notified ∧ f.sent = m.sent ∧
      (m.unreportedFault = true ∨ m.finds polled = true ∧ m.notified = .healthy → f.unreportedFault = true) ∧
      r.1 = some d ∧ Accessed settings f t accepts d.access r.2.face := by
  have hobserve := @observe_face (some t) m polled
  have hconsistent : Consistent (m.observe polled (some t)).face := by
    rcases hobserve with ⟨_, hface⟩ | ⟨_, current, hcurrent, hface⟩
    · rw [hface]
      constructor
      · intro h
        rcases health_cases m.notified with hn | hn
        · exact hn
        · have hun : m.unreportedFault = true := by simpa [hn] using h
          exact hm.unreported hun
      · intro _ hn
        have hn : m.notified = .healthy := hn
        simp [hn]
    · rw [hface]
      refine ⟨hm.unreported, ?_⟩
      intro hfault hn
      have hfault : current = .fault := hfault
      rcases hcurrent with rfl | rfl
      · exact hm.current hfault hn
      · cases hfault
  refine ⟨_, _, hconsistent, ?_, ?_, ?_, rfl, ?_⟩
  · rcases hobserve with ⟨_, hface⟩ | ⟨_, _, _, hface⟩ <;> exact congrArg Face.notified hface
  · rcases hobserve with ⟨_, hface⟩ | ⟨_, _, _, hface⟩ <;> exact congrArg Face.sent hface
  · intro h
    rcases hobserve with ⟨_, hface⟩ | ⟨hfinds, _, _, hface⟩ <;> rw [hface]
    · rcases h with h | ⟨_, h⟩ <;> simp [h]
    · rcases h with h | ⟨h, _⟩
      · exact h
      · rw [hfinds] at h
        cases h
  · have haccess := @accessNotifications_accessed settings (m.observe polled (some t)) accepts hconsistent t
    have hloop := @findingLoop_face settings (some t) rounds
    dsimp only [step, findingNotifications]
    rw [hloop]
    exact haccess

end Drain

/-! ## Runs -/

/-- The access notification that a drain had accepted, and its time. -/
def AccessEvent.accepted (e : AccessEvent) : Option (ℚ × Kind) :=
  match e.input, e.output with
  | .drain _ (some now) _ _, some d => d.access.map fun kind => (now, kind)
  | _, _ => none

/-- The accepted access notifications, the latest first. -/
def accessSent (h : List AccessEvent) : List (ℚ × Kind) := h.filterMap AccessEvent.accepted

theorem accessSent_cons (e : AccessEvent) (h : List AccessEvent) :
    accessSent (e :: h) = (AccessEvent.accepted e).toList ++ accessSent h := by
  rw [accessSent, List.filterMap_cons]
  cases AccessEvent.accepted e <;> rfl

def Call.time? : Call → Option ℚ
  | .drain _ now _ _ => now
  | _ => none

/-- The clock of the drains is finite and does not go back. -/
structure Clocked (h : List AccessEvent) : Prop where
  finite : ∀ e ∈ h, ∀ polled now accepts rounds, e.input = .drain polled now accepts rounds → now ≠ none
  ordered : (h.filterMap fun e => e.input.time?).Pairwise fun later earlier => earlier ≤ later

variable {h : List AccessEvent} {e : AccessEvent} {accepts : Bool}

theorem Clocked.of_cons (hc : Clocked (e :: h)) : Clocked h := by
  refine ⟨fun x hx => hc.finite x (List.mem_cons_of_mem _ hx), ?_⟩
  have hordered := hc.ordered
  rw [List.filterMap_cons] at hordered
  split at hordered
  · exact hordered
  · exact (List.pairwise_cons.1 hordered).2

theorem Clocked.of_append (later : List AccessEvent) (hc : Clocked (later ++ h)) : Clocked h := by
  induction later with
  | nil => exact hc
  | cons e later ih => exact ih hc.of_cons

/-- The access state against what was accepted, and the times of the drains. -/
structure Inv (settings : Settings) (accepted : List (ℚ × Kind)) (ts : List ℚ) (f : Face) : Prop where
  consistent : Consistent f
  notified : f.notified = .fault ↔ ∃ t rest, accepted = (t, .humanAccessFault) :: rest
  kinds : ∀ x ∈ accepted, x.2 = .humanAccessFault ∨ x.2 = .humanAccessRecovered
  times : ∀ x ∈ accepted, x.1 ∈ ts
  window : ∃ old, accepted.map Prod.fst = (f.sent.map Prod.fst).reverse ++ old ∧
    ∀ t ∈ old, ∃ t' ∈ ts, t + hourSeconds ≤ t'
  budget : ∀ x, (accepted.map Prod.fst).countP (fun t => x ≤ t ∧ t < x + hourSeconds) ≤ settings.accessBudget
  alternate : ∀ newer t older, accepted = newer ++ (t, .humanAccessRecovered) :: older →
    ∃ t' rest, older = (t', .humanAccessFault) :: rest

section Run

variable {settings : Settings} {accepted : List (ℚ × Kind)} {ts : List ℚ} {f f' : Face} {t : ℚ}

theorem Inv.init : Inv settings [] [] (face {}) :=
  ⟨⟨by simp [face], by simp [face]⟩, by simp [face], by simp, by simp, ⟨[], by simp [face], by simp⟩, by simp, by simp⟩

theorem Inv.expire (hI : Inv settings accepted ts f) (ht : ∀ t' ∈ ts, t' ≤ t) :
    ∃ old, accepted.map Prod.fst = ((f.window settings t).map Prod.fst).reverse ++ old ∧ ∀ t' ∈ old, t' + hourSeconds ≤ t := by
  obtain ⟨old, hcut, hold⟩ := hI.window
  set keeps := fun entry : ℚ × EventId => decide ¬(entry.1 ≤ t ∧ t < entry.1 + hourSeconds)
  have hsplit : f.sent = f.sent.takeWhile keeps ++ f.sent.dropWhile keeps := List.takeWhile_append_dropWhile.symm
  have hbefore : ∀ entry ∈ f.sent, entry.1 ≤ t := by
    intro entry hentry
    have hmem : entry.1 ∈ accepted.map Prod.fst := by
      rw [hcut]
      exact List.mem_append_left _ (List.mem_reverse.2 (List.mem_map_of_mem hentry))
    obtain ⟨x, hx, heq⟩ := List.mem_map.1 hmem
    exact heq ▸ ht _ (hI.times x hx)
  refine ⟨((f.sent.takeWhile keeps).map Prod.fst).reverse ++ old, ?_, ?_⟩
  · rw [hcut]
    conv_lhs => rw [hsplit]
    rw [List.map_append, List.reverse_append, List.append_assoc]
    rfl
  · intro t' ht'
    rcases List.mem_append.1 ht' with ht' | ht'
    · obtain ⟨entry, hentry, rfl⟩ := List.mem_map.1 (List.mem_reverse.1 ht')
      have hexpired := List.mem_takeWhile_imp hentry
      have hle := hbefore entry (List.takeWhile_subset _ hentry)
      simpa [keeps, hle] using hexpired
    · obtain ⟨t'', ht'', hle⟩ := hold t' ht'
      exact hle.trans (ht t'' ht'')

theorem Inv.accept (hI : Inv settings accepted ts f) (ht : ∀ t' ∈ ts, t' ≤ t)
    (hopen : f.free settings t accepts = true) (event : EventId) (kind : Kind) :
    (∃ old, ((t, kind) :: accepted).map Prod.fst =
      ((f.window settings t ++ [(t, event)]).map Prod.fst).reverse ++ old ∧
      ∀ t' ∈ old, ∃ t'' ∈ t :: ts, t' + hourSeconds ≤ t'') ∧
    ∀ x, (((t, kind) :: accepted).map Prod.fst).countP (fun t => x ≤ t ∧ t < x + hourSeconds) ≤ settings.accessBudget := by
  obtain ⟨old, hcut, hold⟩ := hI.expire ht
  constructor
  · refine ⟨old, ?_, fun t' ht' => ⟨t, List.mem_cons_self, hold t' ht'⟩⟩
    rw [List.map_cons, hcut, List.map_append, List.reverse_append]
    rfl
  · intro x
    rw [List.map_cons, List.countP_cons]
    by_cases hin : x ≤ t ∧ t < x + hourSeconds
    · -- what the hour has before is in the window, which has room
      have hroom : (f.window settings t).length < settings.accessBudget :=
        of_decide_eq_true (Bool.and_eq_true_iff.1 hopen).1
      have hold0 : old.countP (fun t => x ≤ t ∧ t < x + hourSeconds) = 0 := by
        rw [List.countP_eq_zero]
        intro t' ht'
        have := hold t' ht'
        simp only [decide_eq_true_eq, not_and, not_lt]
        intro hx
        linarith
      rw [hcut, List.countP_append, hold0]
      have hle : (((f.window settings t).map Prod.fst).reverse).countP
          (fun t => x ≤ t ∧ t < x + hourSeconds) ≤ _ := List.countP_le_length
      simp only [List.length_reverse, List.length_map] at hle
      split <;> omega
    · rw [if_neg (by simpa using hin)]
      exact hI.budget x

theorem Inv.accessed (hI : Inv settings accepted ts f) (ht : ∀ t' ∈ ts, t' ≤ t) {kind : Option Kind}
    (h : Accessed settings f t accepts kind f') :
    Inv settings ((kind.map fun kind => (t, kind)).toList ++ accepted) (t :: ts) f' := by
  have hmem : ∀ x ∈ accepted, x.1 ∈ t :: ts := fun x hx => List.mem_cons_of_mem _ (hI.times x hx)
  cases h with
  | held sent hsent hdone =>
    refine ⟨⟨hI.consistent.unreported, hI.consistent.current⟩, hI.notified, hI.kinds, hmem, ?_, hI.budget, hI.alternate⟩
    rcases hsent with rfl | rfl
    · obtain ⟨old, hcut, hold⟩ := hI.window
      refine ⟨old, hcut, ?_⟩
      intro t' ht'
      obtain ⟨t'', ht'', hle⟩ := hold t' ht'
      exact ⟨t'', List.mem_cons_of_mem _ ht'', hle⟩
    · obtain ⟨old, hcut, hold⟩ := hI.expire ht
      exact ⟨old, hcut, fun t' ht' => ⟨t, List.mem_cons_self, hold t' ht'⟩⟩
  | fault event hopen =>
    obtain ⟨hwindow, hbudget⟩ := hI.accept ht hopen event .humanAccessFault
    refine ⟨⟨by simp, by simp⟩, ?_, ?_, ?_, hwindow, hbudget, ?_⟩
    · exact ⟨fun _ => ⟨t, accepted, rfl⟩, fun _ => rfl⟩
    · exact List.forall_mem_cons.2 ⟨.inl rfl, hI.kinds⟩
    · exact List.forall_mem_cons.2 ⟨List.mem_cons_self, hmem⟩
    · intro newer t' older hcut
      cases newer with
      | nil => cases hcut
      | cons x newer => exact hI.alternate newer t' older (List.cons.inj hcut).2
  | recovered event hopen hcurrent hnotified hreported =>
    obtain ⟨hwindow, hbudget⟩ := hI.accept ht hopen event .humanAccessRecovered
    refine ⟨⟨by simp, by simp [hcurrent]⟩, ?_, ?_, ?_, hwindow, hbudget, ?_⟩
    · simp
    · exact List.forall_mem_cons.2 ⟨.inr rfl, hI.kinds⟩
    · exact List.forall_mem_cons.2 ⟨List.mem_cons_self, hmem⟩
    · intro newer t' older hcut
      cases newer with
      | nil =>
        cases hcut
        exact hI.notified.1 hnotified
      | cons x newer => exact hI.alternate newer t' older (List.cons.inj hcut).2

end Run

def drainTimes (h : List AccessEvent) : List ℚ := h.filterMap fun e => e.input.time?

section Histories

variable {settings : Settings} {h : List AccessEvent} {m : Monitor} {rounds : Nat → Round} {polled : Option Health}
  {now : Option ℚ} {earlier : List AccessEvent}

/-- A drain: its time, the access state it observes, and what its access part accepts. -/
theorem drain_step (hI : Inv settings (accessSent h) (drainTimes h) e.before.face) (hc : Clocked (e :: h))
    (he : e = Event.of (step settings) e.before e.input) (hinput : e.input = .drain polled now accepts rounds) :
    ∃ t f kind, now = some t ∧ Inv settings (accessSent h) (drainTimes h) f ∧ (∀ t' ∈ drainTimes h, t' ≤ t) ∧
      f.sent = e.before.sent ∧
      (e.before.unreportedFault = true ∨ e.before.finds polled = true ∧ e.before.notified = .healthy →
        f.unreportedFault = true) ∧
      Accessed settings f t accepts kind e.after.face ∧ AccessEvent.accepted e = kind.map fun kind => (t, kind) := by
  obtain ⟨m, call, output, after⟩ := e
  cases hinput
  dsimp only at he
  obtain ⟨-, -, rfl, rfl⟩ := Event.mk.inj he
  obtain ⟨t, rfl⟩ := Option.ne_none_iff_exists'.1 (hc.finite _ List.mem_cons_self polled now accepts rounds rfl)
  obtain ⟨f, d, hconsistent, hnotified, hsent, hunreported, hout, haccessed⟩ :=
    @drain_accessed settings m accepts rounds hI.consistent polled t
  have hIf : Inv settings (accessSent h) (drainTimes h) f :=
    { hI with
      consistent := hconsistent
      notified := hnotified ▸ hI.notified
      window := hsent ▸ hI.window }
  refine ⟨t, f, d.access, rfl, hIf, (List.pairwise_cons.1 hc.ordered).1, hsent, hunreported, haccessed, ?_⟩
  simp only [AccessEvent.accepted, hout]

theorem inv_of_reaches (hs : Reaches (step settings) {} h m) (hc : Clocked h) :
    Inv settings (accessSent h) (drainTimes h) m.face := by
  induction hs with
  | start => exact .init
  | @next h m hs call ih =>
    have hI := ih hc.of_cons
    cases call with
    | drain polled now accepts rounds =>
      obtain ⟨t, f, kind, rfl, hIf, ht, _, _, haccessed, haccepted⟩ := drain_step hI hc rfl rfl
      rw [accessSent_cons, haccepted]
      exact hIf.accessed ht haccessed
    | emit reasons | compositionFailed | commit | credentialFinding => exact hI

/-- The budget is open at a drain, and the service accepts. -/
def AccessEvent.free (settings : Settings) (e : AccessEvent) : Bool :=
  match e.input with
  | .drain _ now accepts _ => (windowOpen e.before.sent settings.accessBudget now).1 && accepts
  | _ => false

end Histories

end Sentinel.Monitoring.Access
