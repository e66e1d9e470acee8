import Mathlib
import Sentinel.Monitoring.Access

/-!
# Notifications of findings

Every finding that was counted is pending or covered by an accepted notification. The event IDs of the accepted ones are
distinct as long as no notification is refused under the name of a finding that is still to be counted; a refused name is
used again without being remembered as the last cursor.
-/

namespace Sentinel.Monitoring.Access

open Monitor

/-! ## One round -/

/-- What the notifications of findings depend on, apart from the window. -/
structure Findings where
  arrivals : Nat
  pending : Nat
  batched : Bool
  lastCursor : Option EventId
  committed : Nat
  counted : Nat
  attempt : Option EventId

def Monitor.findings (m : Monitor) : Findings :=
  ⟨m.findingArrivals, m.findingsPending, m.findingsBatched, m.lastCursor, m.committed, m.counted,
    m.attempts .credentialFinding⟩

/-- The event ID that a notification takes: its own name, or that of the refused one, or a new one. -/
inductive Named (attempt : Option EventId) (sequence : Nat) : Option EventId → EventId → Nat → Prop
  | event (id : EventId) : Named attempt sequence (some id) id sequence
  | stored (id : EventId) (h : attempt = some id) : Named attempt sequence none id sequence
  | fresh (h : attempt = none) : Named attempt sequence none (.process (sequence + 1) .credentialFinding) (sequence + 1)

section Round

variable {settings : Settings} {now : Option ℚ} {m : Monitor}

theorem notify_finding (event : Option EventId) (accepts : Bool) :
    let r := m.notify .credentialFinding event accepts
    ∃ id, Named m.findings.attempt m.sequence event id r.2.sequence ∧ r.1 = (if accepts then some id else none) ∧
      r.2.findings = { m.findings with attempt := if accepts then none else some id } := by
  unfold notify
  dsimp only
  cases hstored : m.attempts .credentialFinding with
  | none =>
    cases event with
    | none => cases accepts <;> exact ⟨_, .fresh hstored, rfl, by simp [findings]⟩
    | some id => cases accepts <;> exact ⟨id, .event id, rfl, by simp [findings]⟩
  | some stored =>
    cases event with
    | none => cases accepts <;> exact ⟨stored, .stored stored hstored, rfl, by simp [findings]⟩
    | some id => cases accepts <;> exact ⟨id, .event id, rfl, by simp [findings]⟩

/-- An event that a round names is that of the newest committed finding, for the last notification of a drain. -/
def Findings.Newest (f : Findings) (committed : Nat) (event : Option EventId) : Prop :=
  ∀ e, event = some e → e = .cursor committed ∧ f.lastCursor ≠ some e ∧ (f.batched = true ∨ f.pending = 1)

/-- What one round does: the hour is full, or the notification is refused or accepted. -/
inductive Rounded (f : Findings) (sequence : Nat) : Option (EventId × Bool) → Findings → Nat → Prop
  | closed : Rounded f sequence none { f with batched := true } sequence
  | refused (committed : Nat) (event : Option EventId) (id : EventId) (sequence' : Nat) (hcommitted : f.committed ≤ committed)
      (hevent : f.Newest committed event) (hid : Named f.attempt sequence event id sequence') :
    Rounded f sequence none { f with committed := committed, attempt := some id } sequence'
  | accepted (committed : Nat) (event : Option EventId) (id : EventId) (sequence' : Nat) (hcommitted : f.committed ≤ committed)
      (hevent : f.Newest committed event) (hid : Named f.attempt sequence event id sequence') :
    Rounded f sequence (some (id, f.batched))
      { f with
        committed := committed, attempt := none, lastCursor := event.or f.lastCursor, batched := false
        pending := if f.batched then 0 else f.pending - 1 } sequence'

theorem roundEvent_spec (newest : Bool) (round : Round) :
    let r := m.roundEvent newest round
    r.2 = { m with committed := m.committed + round.commits } ∧
      ∀ e, r.1 = some e → e = .cursor (m.committed + round.commits) ∧ m.lastCursor ≠ some e ∧ newest = true := by
  unfold roundEvent
  refine ⟨rfl, ?_⟩
  intro e he
  dsimp only at he
  by_cases hnewest : (newest && round.answers && m.committed + round.commits ≠ 0) = true
  · rw [if_pos hnewest] at he
    split at he
    · cases he
    · rename_i hne
      cases he
      simp only [Bool.and_eq_true] at hnewest
      exact ⟨rfl, fun h => hne h.symm, hnewest.1.1⟩
  · rw [if_neg hnewest] at he
    split at he <;> cases he

theorem covered_findings (m : Monitor) (event : Option EventId) (accepted : EventId) (now : Option ℚ) :
    (m.covered event accepted now).findings =
      { m.findings with
        lastCursor := event.or m.lastCursor, batched := false
        pending := if m.findingsBatched then 0 else m.findingsPending - 1 } ∧
    (m.covered event accepted now).sequence = m.sequence := by
  unfold covered findings
  cases m.findingsBatched <;> simp

theorem findingRound_rounded (round : Round) :
    let r := m.findingRound settings now round
    Rounded m.findings m.sequence r.1 r.2.findings r.2.sequence := by
  unfold findingRound
  dsimp only
  split
  case isFalse => exact .closed
  set m₁ := { m with findingSent := (windowOpen m.findingSent settings.findingBudget now).2 }
  obtain ⟨hcommitted, hevent⟩ := @roundEvent_spec m₁ (m.findingsBatched || m.findingsPending == 1) round
  generalize hr : m₁.roundEvent (m.findingsBatched || m.findingsPending == 1) round = r at hcommitted hevent ⊢
  obtain ⟨event, m₂⟩ := r
  cases hcommitted
  dsimp only at hevent ⊢
  obtain ⟨id, hid, hout, hfindings⟩ := @notify_finding { m₁ with committed := m₁.committed + round.commits } event round.accepts
  have hevent' : m.findings.Newest (m.committed + round.commits) event := by
    intro e he
    obtain ⟨h1, h2, h3⟩ := hevent e he
    exact ⟨h1, h2, by simpa [findings] using h3⟩
  generalize hnotify : ({ m₁ with committed := m₁.committed + round.commits } : Monitor).notify .credentialFinding event
    round.accepts = r at hid hout hfindings ⊢
  obtain ⟨accepted, m₃⟩ := r
  dsimp only at hid hout hfindings ⊢
  have hle : m.findings.committed ≤ m.committed + round.commits := Nat.le_add_right _ _
  cases haccepts : round.accepts <;> rw [haccepts] at hout hfindings <;> cases hout
  · exact hfindings ▸ .refused _ event id _ hle hevent' hid
  · obtain ⟨hcovered, hsequence⟩ := covered_findings m₃ event id now
    rw [if_pos rfl]
    dsimp only
    rw [hcovered, hsequence, hfindings]
    simp only [findings, Findings.mk.injEq] at hfindings
    rw [hfindings.2.1, hfindings.2.2.1, hfindings.2.2.2.1]
    exact .accepted _ event id _ hle hevent' hid

end Round

/-! ## Distinct event IDs -/

/-- The event IDs `ids` that were accepted are distinct, and none can come again. -/
structure Distinct (ids : List EventId) (f : Findings) (sequence : Nat) : Prop where
  nodup : ids.Nodup
  counted : f.counted ≤ f.committed
  process : ∀ n kind, .process n kind ∈ ids → n ≤ sequence
  cursor : ∀ c, .cursor c ∈ ids → c < f.committed ∨
    c = f.committed ∧ (f.lastCursor = some (.cursor c) ∨ c = f.counted ∧ f.arrivals = 0 ∧ f.pending = 0)
  stored : ∀ id, f.attempt = some id → id ∉ ids
  storedProcess : ∀ n kind, f.attempt = some (.process n kind) → n ≤ sequence
  storedCursor : ∀ c, f.attempt = some (.cursor c) → c < f.committed ∨
    c = f.committed ∧ c = f.counted ∧ f.arrivals = 0 ∧ (f.batched = true ∨ f.pending = 1)

/-- No notification is refused under the name of a finding that is still to be counted. -/
def Findings.Calm (f : Findings) : Prop := ∀ c, f.attempt = some (.cursor c) → c ≤ f.counted

instance (f : Findings) : Decidable f.Calm :=
  match hid : f.attempt with
  | some (.cursor c) => decidable_of_iff (c ≤ f.counted) (by simp [Findings.Calm, hid])
  | some (.process ..) => .isTrue (by simp [Findings.Calm, hid])
  | none => .isTrue (by simp [Findings.Calm, hid])

section Distinct

variable {ids : List EventId} {f f' : Findings} {sequence sequence' committed : Nat} {event : Option EventId} {id : EventId}

/-- The log may grow. -/
theorem Distinct.grow (h : Distinct ids f sequence) (hle : f.committed ≤ committed) :
    Distinct ids { f with committed } sequence := by
  refine { h with counted := h.counted.trans hle, cursor := ?_, storedCursor := ?_ }
  · intro c hc
    rcases h.cursor c hc with hlt | ⟨rfl, hlast⟩
    · exact .inl (hlt.trans_le hle)
    · exact hle.lt_or_eq.imp_right fun heq => ⟨heq, hlast⟩
  · intro c hc
    rcases h.storedCursor c hc with hlt | ⟨rfl, hlast⟩
    · exact .inl (hlt.trans_le hle)
    · exact hle.lt_or_eq.imp_right fun heq => ⟨heq, hlast⟩

theorem Distinct.named (h : Distinct ids f sequence) (hpending : f.pending ≠ 0) (hevent : f.Newest f.committed event)
    (hid : Named f.attempt sequence event id sequence') :
    id ∉ ids ∧ sequence ≤ sequence' ∧ (∀ n kind, id = .process n kind → n ≤ sequence') := by
  cases hid with
  | event id =>
    obtain ⟨rfl, hlast, _⟩ := hevent id rfl
    refine ⟨?_, le_rfl, nofun⟩
    intro hmem
    rcases h.cursor _ hmem with hlt | ⟨_, hcursor | ⟨_, _, hzero⟩⟩
    · omega
    · exact hlast hcursor
    · exact hpending hzero
  | stored id hstored =>
    refine ⟨h.stored id hstored, le_rfl, ?_⟩
    rintro n kind rfl
    exact h.storedProcess n kind hstored
  | fresh hnone =>
    refine ⟨?_, Nat.le_succ _, ?_⟩
    · intro hmem
      have := h.process _ _ hmem
      omega
    · intro n kind heq
      cases heq
      exact le_rfl

variable {r : Option (EventId × Bool)}

/-- One round keeps the event IDs distinct, if it leaves no refused name of a finding that is still to be counted. -/
theorem Distinct.round (h : Distinct ids f sequence) (harrivals : f.arrivals = 0) (hpending : f.pending ≠ 0)
    (hr : Rounded f sequence r f' sequence') (hcalm : f'.Calm) :
    Distinct ((r.map Prod.fst).toList ++ ids) f' sequence' ∧ f'.arrivals = 0 := by
  cases hr with
  | closed =>
    refine ⟨{ h with storedCursor := ?_ }, harrivals⟩
    intro c hc
    rcases h.storedCursor c hc with hlt | ⟨hc1, hc2, hc3, _⟩
    · exact .inl hlt
    · exact .inr ⟨hc1, hc2, hc3, .inl rfl⟩
  | refused committed event id _ hcommitted hevent hid =>
    have h := h.grow hcommitted
    obtain ⟨hnew, hsequence, hprocess⟩ := h.named hpending hevent hid
    have hcounted := h.counted
    refine ⟨⟨h.nodup, hcounted, fun n kind hn => (h.process n kind hn).trans hsequence, h.cursor, ?_, ?_, ?_⟩, harrivals⟩
    · intro id' hid'
      cases hid'
      exact hnew
    · intro n kind hid'
      cases hid'
      exact hprocess n kind rfl
    · intro c hc
      cases hc
      have hle := hcalm c rfl
      cases hid with
      | event _ =>
        obtain ⟨heq, _, hnewest⟩ := hevent _ rfl
        cases heq
        exact .inr ⟨rfl, hle.antisymm hcounted, harrivals, hnewest⟩
      | stored _ hstored => exact h.storedCursor c hstored
  | accepted committed event id _ hcommitted hevent hid =>
    have h := h.grow hcommitted
    obtain ⟨hnew, hsequence, hprocess⟩ := h.named hpending hevent hid
    refine ⟨⟨List.nodup_cons.2 ⟨hnew, h.nodup⟩, h.counted, ?_, ?_, nofun, nofun, nofun⟩, harrivals⟩
    · intro n kind hn
      rcases List.mem_cons.1 hn with hn | hn
      · exact hprocess n kind hn.symm
      · exact (h.process n kind hn).trans hsequence
    · intro c hc
      dsimp only
      rcases List.mem_cons.1 hc with hc | hc
      · subst hc
        cases hid with
        | event _ =>
          obtain ⟨heq, _⟩ := hevent _ rfl
          cases heq
          exact .inr ⟨rfl, .inl rfl⟩
        | stored _ hstored =>
          rcases h.storedCursor c hstored with hlt | ⟨heq, hcounted, _, hlast⟩
          · exact .inl hlt
          · have hnone : (if f.batched then 0 else f.pending - 1) = 0 := by
              dsimp only at hlast
              rcases hlast with hlast | hlast <;> simp [hlast]
            exact .inr ⟨heq, .inr ⟨hcounted, harrivals, hnone⟩⟩
      · rcases h.cursor c hc with hlt | ⟨rfl, hlast | ⟨_, _, hzero⟩⟩
        · exact .inl hlt
        · cases event with
          | none => exact .inr ⟨rfl, .inl hlast⟩
          | some e =>
            obtain ⟨rfl, hne, _⟩ := hevent e rfl
            exact absurd hlast hne
        · exact absurd hzero hpending

/-- A round leaves the findings counted, and those that an accepted notification covers are no longer pending. -/
theorem Rounded.pending (hr : Rounded f sequence r f' sequence') (hpending : f.pending ≠ 0) :
    f'.arrivals = f.arrivals ∧ f'.counted = f.counted ∧
      (r.map fun accepted => if accepted.2 then f.pending else 1).getD 0 + f'.pending = f.pending := by
  cases hr with
  | closed | refused => exact ⟨rfl, rfl, Nat.zero_add _⟩
  | accepted =>
    refine ⟨rfl, rfl, ?_⟩
    cases hbatched : f.batched
    · simp only [Option.map_some, Option.getD_some, Bool.false_eq_true, if_false]
      omega
    · simp

end Distinct

/-! ## The loop over pending findings -/

variable {ids : List EventId}

section Loop

variable {settings : Settings} {now : Option ℚ} {rounds : Nat → Round}

theorem findingLoop_none (fuel i : Nat) {m : Monitor} (h : m.findingsPending = 0) :
    findingLoop settings now rounds fuel i m = ([], m) := by
  cases fuel with
  | zero => rfl
  | succ fuel => exact if_pos h

/-- As many rounds as there are pending findings are enough: more fuel changes nothing. -/
theorem findingLoop_fuel {fuel fuel' : Nat} (i : Nat) (m : Monitor) (h : m.findingsPending ≤ fuel)
    (h' : m.findingsPending ≤ fuel') :
    findingLoop settings now rounds fuel i m = findingLoop settings now rounds fuel' i m := by
  induction fuel generalizing fuel' i m with
  | zero => rw [findingLoop_none _ _ (Nat.le_zero.1 h), findingLoop_none _ _ (Nat.le_zero.1 h)]
  | succ fuel ih =>
    by_cases hzero : m.findingsPending = 0
    · rw [findingLoop_none _ _ hzero, findingLoop_none _ _ hzero]
    · obtain ⟨fuel', rfl⟩ := Nat.exists_eq_succ_of_ne_zero (n := fuel') (by omega)
      unfold findingLoop
      rw [if_neg hzero, if_neg hzero]
      have hr := @findingRound_rounded settings now m (rounds i)
      generalize m.findingRound settings now (rounds i) = r at hr ⊢
      obtain ⟨_, _, hpending⟩ := hr.pending hzero
      obtain ⟨_ | ⟨accepted, batch⟩, m'⟩ := r
      · rfl
      · simp only [Option.map_some, Option.getD_some, findings] at hpending
        have hlt : m'.findingsPending < m.findingsPending := by split at hpending <;> omega
        dsimp only
        rw [@ih fuel' (i + 1) m' (by omega) (by omega)]

theorem findingLoop_pending (fuel i : Nat) (m : Monitor) :
    let r := findingLoop settings now rounds fuel i m
    r.2.findingArrivals = m.findingArrivals ∧ r.2.counted = m.counted ∧
      (r.1.map Note.covers).sum + r.2.findingsPending = m.findingsPending := by
  induction fuel generalizing i m with
  | zero => exact ⟨rfl, rfl, Nat.zero_add _⟩
  | succ fuel ih =>
    unfold findingLoop
    by_cases hzero : m.findingsPending = 0
    · rw [if_pos hzero]
      exact ⟨rfl, rfl, Nat.zero_add _⟩
    · rw [if_neg hzero]
      have hr := @findingRound_rounded settings now m (rounds i)
      generalize m.findingRound settings now (rounds i) = r at hr ⊢
      obtain ⟨harrivals, hcounted, hpending⟩ := hr.pending hzero
      obtain ⟨_ | ⟨accepted, batch⟩, m'⟩ := r
      · exact ⟨harrivals, hcounted, hpending⟩
      · obtain ⟨iharrivals, ihcounted, ihpending⟩ := ih (i + 1) m'
        refine ⟨iharrivals.trans harrivals, ihcounted.trans hcounted, ?_⟩
        simp only [Option.map_some, Option.getD_some, findings] at hpending
        simp only [List.map_cons, List.sum_cons]
        omega

theorem findingLoop_distinct (fuel i : Nat) (m : Monitor) (h : Distinct ids m.findings m.sequence)
    (harrivals : m.findingArrivals = 0) (hcalm : (findingLoop settings now rounds fuel i m).2.findings.Calm) :
    let r := findingLoop settings now rounds fuel i m
    Distinct ((r.1.map Note.event).reverse ++ ids) r.2.findings r.2.sequence := by
  induction fuel generalizing i m ids with
  | zero => exact h
  | succ fuel ih =>
    unfold findingLoop at hcalm ⊢
    by_cases hzero : m.findingsPending = 0
    · rw [if_pos hzero]
      exact h
    · rw [if_neg hzero] at hcalm ⊢
      have hr := @findingRound_rounded settings now m (rounds i)
      generalize m.findingRound settings now (rounds i) = r at hr hcalm ⊢
      obtain ⟨_ | ⟨accepted, batch⟩, m'⟩ := r
      · exact (h.round harrivals hzero hr hcalm).1
      · have haccepted : m'.findings.Calm := by
          intro c hc
          dsimp only at hr
          generalize m'.findings = f' at hr hc ⊢
          cases hr
          cases hc
        obtain ⟨hround, harrivals'⟩ := h.round harrivals hzero hr haccepted
        have := ih (i + 1) m' hround harrivals' hcalm
        simpa using this

end Loop

/-! ## Whole runs -/

section Run

variable {settings : Settings} {now : Option ℚ} {m : Monitor}

theorem notify_frame {kind : Kind} (hkind : kind ≠ .credentialFinding) (event : Option EventId) (accepts : Bool) :
    (m.notify kind event accepts).2.findings = m.findings ∧ m.sequence ≤ (m.notify kind event accepts).2.sequence := by
  have hne : Kind.credentialFinding ≠ kind := hkind.symm
  unfold notify findings
  cases m.attempts kind <;> cases event <;> cases accepts <;> simp [hne]

theorem sendAccess_frame {kind : Kind} (hkind : kind ≠ .credentialFinding) (accepts : Bool) :
    (m.sendAccess settings kind now accepts).2.findings = m.findings ∧
      m.sequence ≤ (m.sendAccess settings kind now accepts).2.sequence := by
  unfold sendAccess
  dsimp only
  split
  · obtain ⟨hfindings, hsequence⟩ := @notify_frame
      { m with sent := (windowOpen m.sent settings.accessBudget now).2 } kind hkind none accepts
    split <;> rename_i hr <;> rw [hr] at hfindings hsequence <;> exact ⟨hfindings, hsequence⟩
  · exact ⟨rfl, le_rfl⟩

theorem accessNotifications_frame (accepts : Bool) :
    (m.accessNotifications settings now accepts).2.findings = m.findings ∧
      m.sequence ≤ (m.accessNotifications settings now accepts).2.sequence := by
  have hfault := @sendAccess_frame settings now m .humanAccessFault nofun accepts
  have hrecovered := @sendAccess_frame settings now m .humanAccessRecovered nofun accepts
  unfold accessNotifications
  split_ifs
  · split <;> rename_i hr <;> rw [hr] at hfault <;> exact hfault
  · split <;> rename_i hr <;> rw [hr] at hfault <;> exact hfault
  · split <;> rename_i hr <;> rw [hr] at hrecovered <;> exact hrecovered
  · exact ⟨rfl, le_rfl⟩

/-- The findings that arrived are pending at the beginning of a drain. -/
def Findings.observed (f : Findings) : Findings :=
  { f with arrivals := 0, pending := if f.arrivals ≠ 0 then min (f.pending + f.arrivals) maxCount else f.pending }

theorem observe_findings (polled : Option Health) :
    (m.observe polled now).findings = m.findings.observed ∧ (m.observe polled now).sequence = m.sequence := by
  unfold observe Findings.observed findings
  dsimp only
  split_ifs <;> exact ⟨rfl, rfl⟩

/-- The accepted notifications of findings in a run, the latest first. -/
def notesOf (h : List AccessEvent) : List Note := h.flatMap fun e => (e.output.elim [] Drained.notes).reverse

variable {f : Findings}

theorem Distinct.observed {sequence : Nat} (h : Distinct ids f sequence) : Distinct ids f.observed sequence := by
  unfold Findings.observed
  by_cases harrivals : f.arrivals = 0
  · refine { h with cursor := ?_, storedCursor := ?_ }
    · intro c hc
      rcases h.cursor c hc with hlt | ⟨rfl, hlast | ⟨hcounted, _, hzero⟩⟩
      · exact .inl hlt
      · exact .inr ⟨rfl, .inl hlast⟩
      · exact .inr ⟨rfl, .inr ⟨hcounted, rfl, by simpa [harrivals] using hzero⟩⟩
    · intro c hc
      rcases h.storedCursor c hc with hlt | ⟨rfl, hcounted, _, hlast⟩
      · exact .inl hlt
      · exact .inr ⟨rfl, hcounted, rfl, by simpa [harrivals] using hlast⟩
  · refine { h with cursor := ?_, storedCursor := ?_ }
    · intro c hc
      rcases h.cursor c hc with hlt | ⟨rfl, hlast | ⟨_, hzero, _⟩⟩
      · exact .inl hlt
      · exact .inr ⟨rfl, .inl hlast⟩
      · exact absurd hzero harrivals
    · intro c hc
      rcases h.storedCursor c hc with hlt | ⟨_, _, hzero, _⟩
      · exact .inl hlt
      · exact absurd hzero harrivals

theorem Distinct.sequence {sequence sequence' : Nat} (h : Distinct ids f sequence) (hle : sequence ≤ sequence') :
    Distinct ids f sequence' :=
  { h with
    process := fun n kind hn => (h.process n kind hn).trans hle
    storedProcess := fun n kind hn => (h.storedProcess n kind hn).trans hle }

theorem Distinct.count {sequence : Nat} (h : Distinct ids f sequence) (hcommitted : f.counted < f.committed) :
    Distinct ids { f with arrivals := min (f.arrivals + 1) maxCount, counted := f.counted + 1 } sequence := by
  refine { h with counted := hcommitted, cursor := ?_, storedCursor := ?_ }
  · intro c hc
    rcases h.cursor c hc with hlt | ⟨rfl, hlast | ⟨heq, _⟩⟩
    · exact .inl hlt
    · exact .inr ⟨rfl, .inl hlast⟩
    · omega
  · intro c hc
    rcases h.storedCursor c hc with hlt | ⟨_, heq, _⟩
    · exact .inl hlt
    · omega

theorem step_distinct (h : Distinct ids m.findings m.sequence) (call : Call)
    (hcommitted : call = .credentialFinding → m.counted < m.committed) (hcalm : (m.step settings call).2.findings.Calm) :
    let r := m.step settings call
    Distinct (((r.1.elim [] Drained.notes).map Note.event).reverse ++ ids) r.2.findings r.2.sequence := by
  cases call with
  | emit reasons | compositionFailed => exact h
  | commit => exact h.grow (Nat.le_succ _)
  | credentialFinding => exact h.count (hcommitted rfl)
  | drain polled now accepts rounds =>
    obtain ⟨hobserve, hsequence⟩ := @observe_findings now m polled
    obtain ⟨haccess, hle⟩ := @accessNotifications_frame settings now (m.observe polled now) accepts
    set m₁ := ((m.observe polled now).accessNotifications settings now accepts).2 with hm₁
    refine findingLoop_distinct m₁.findingsPending 0 m₁ ?_ ?_ hcalm
    · rw [haccess, hobserve]
      exact h.observed.sequence (hsequence ▸ hle)
    · exact congrArg Findings.arrivals (haccess.trans hobserve)

/-- A drain makes the findings that arrived pending, and covers those that are no longer pending after it. -/
theorem drain_pending (polled : Option Health) (accepts : Bool) (rounds : Nat → Round) :
    let r := m.step settings (.drain polled now accepts rounds)
    r.2.findingArrivals = 0 ∧ r.2.counted = m.counted ∧
      ((r.1.elim [] Drained.notes).map Note.covers).sum + r.2.findingsPending = m.findings.observed.pending := by
  have hfindings := (@accessNotifications_frame settings now (m.observe polled now) accepts).1.trans
    (@observe_findings now m polled).1
  set m₁ := ((m.observe polled now).accessNotifications settings now accepts).2 with hm₁
  obtain ⟨harrivals, hcounted, hpending⟩ := @findingLoop_pending settings now rounds m₁.findingsPending 0 m₁
  exact ⟨harrivals.trans (congrArg Findings.arrivals hfindings), hcounted.trans (congrArg Findings.counted hfindings),
    hpending.trans (congrArg Findings.pending hfindings)⟩

theorem counted_le_step (call : Call) : m.counted ≤ (m.step settings call).2.counted := by
  cases call with
  | credentialFinding => exact Nat.le_succ _
  | drain polled now accepts rounds => exact (@drain_pending settings now m polled accepts rounds).2.1.ge
  | _ => exact le_rfl

/-- One call keeps the findings that were counted, as arrived, pending or covered ones. -/
theorem step_counted {covered : Nat} (call : Call) (hmax : (m.step settings call).2.counted < maxCount)
    (h : m.counted = m.findingArrivals + m.findingsPending + covered) :
    let r := m.step settings call
    r.2.counted =
      r.2.findingArrivals + r.2.findingsPending + (((r.1.elim [] Drained.notes).map Note.covers).sum + covered) := by
  cases call with
  | emit reasons | compositionFailed | commit => exact h.trans (by simp [Monitor.step])
  | credentialFinding =>
    simp only [Monitor.step] at hmax ⊢
    rw [Nat.min_eq_left (by omega)]
    simp only [Option.elim_none, List.map_nil, List.sum_nil]
    omega
  | drain polled now accepts rounds =>
    obtain ⟨harrivals, hcounted, hpending⟩ := @drain_pending settings now m polled accepts rounds
    dsimp only
    generalize m.step settings (.drain polled now accepts rounds) = r at hmax harrivals hcounted hpending ⊢
    -- the pending findings are at most those that were counted, so they do not saturate
    have hobserved : m.findings.observed.pending = m.findingArrivals + m.findingsPending := by
      show (if m.findingArrivals ≠ 0 then min (m.findingsPending + m.findingArrivals) maxCount else m.findingsPending) = _
      split <;> omega
    omega

/-- A finding is counted after it was committed. -/
def Ordered (h : List AccessEvent) : Prop := ∀ e ∈ h, e.input = .credentialFinding → e.before.counted < e.before.committed

variable {h : List AccessEvent}

theorem counted_of_reaches (hs : Reaches (step settings) {} h m) (hmax : m.counted < maxCount) :
    m.counted = m.findingArrivals + m.findingsPending + ((notesOf h).map Note.covers).sum := by
  induction hs with
  | start => rfl
  | next hs call ih =>
    have := step_counted call hmax (ih ((counted_le_step call).trans_lt hmax))
    simpa [notesOf, Event.of] using this

theorem distinct_of_reaches (hs : Reaches (step settings) {} h m) (ho : Ordered h) (hcalm : ∀ e ∈ h, e.after.findings.Calm) :
    Distinct ((notesOf h).map Note.event) m.findings m.sequence := by
  induction hs with
  | start => exact ⟨List.nodup_nil, le_rfl, nofun, nofun, nofun, nofun, nofun⟩
  | next hs call ih =>
    obtain ⟨hcommitted, ho⟩ := List.forall_mem_cons.1 ho
    obtain ⟨hcalm, hcalms⟩ := List.forall_mem_cons.1 hcalm
    have := step_distinct (ih ho hcalms) call hcommitted hcalm
    simpa [notesOf, Event.of, List.map_reverse] using this

end Run

/-- Every finding that was counted is pending or covered by one accepted notification. In a run in which no notification is
refused under the name of a finding that is still to be counted, the accepted notifications have distinct event IDs. -/
theorem finding_notifications {settings : Settings} {h : List AccessEvent} {m : Monitor} (hs : Reaches (step settings) {} h m)
    (ho : Ordered h) (hmax : m.counted < maxCount) :
    m.counted = m.findingArrivals + m.findingsPending + ((notesOf h).map Note.covers).sum ∧
      ((∀ e ∈ h, ∀ c, e.after.attempts .credentialFinding = some (.cursor c) → c ≤ e.after.counted) →
        ((notesOf h).map Note.event).Nodup) :=
  ⟨counted_of_reaches hs hmax, fun hcalm => (distinct_of_reaches hs ho hcalm).nodup⟩

/-- The refused notification is that of the newest finding. -/
def retriedFinding : List Call :=
  [.commit, .credentialFinding, .drain none (some 0) true fun _ => { accepts := false }, .commit, .credentialFinding,
    .drain none (some 60) true fun _ => {}]

theorem finding_notifications_retried :
    let r := perform (step ⟨4, 4, 86400, by norm_num⟩) {} retriedFinding
    (notesOf r.1).map Note.event = [.cursor 2, .cursor 1] ∧ ((notesOf r.1).map Note.event).Nodup :=
  ⟨by decide +kernel, (finding_notifications (Reaches.perform (step ⟨4, 4, 86400, by norm_num⟩) {} retriedFinding)
    (by simp [Ordered, perform, retriedFinding, Event.of, step]; decide +kernel) (by decide +kernel)).2
      (show ∀ e : AccessEvent, e ∈ _ → e.after.findings.Calm by decide +kernel)⟩

/-- Two findings are committed before the first is counted, and the notification of the first is refused: it takes the name of
the second, and both are accepted under that name. -/
def refusedFinding : List Call :=
  [.commit, .commit, .credentialFinding, .drain none (some 0) true fun _ => { accepts := false }, .credentialFinding,
    .drain none (some 60) true fun _ => {}]

theorem finding_notifications_refused :
    let r := perform (step ⟨4, 4, 86400, by norm_num⟩) {} refusedFinding
    Ordered r.1 ∧ r.2.counted < maxCount ∧ (notesOf r.1).map Note.event = [.cursor 2, .cursor 2] := by
  refine ⟨?_, by decide +kernel, by decide +kernel⟩
  simp [Ordered, perform, refusedFinding, Event.of, step]
  decide +kernel

end Sentinel.Monitoring.Access
