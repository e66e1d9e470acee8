import Sentinel.Detection.Capture

/-!
# Replaced producer streams

What an offered sample does to the slot is one of four things: it is refused, it exhausts the history, or the slot follows its
stream and the sample is sampled out or placed. A pending sample is one of the current producer stream, which is not retired,
and a runtime stream lasts as long as nothing interrupts it.
-/

namespace Sentinel.Detection.Capture

open Slot

variable {b : Binding} {m m' : Slot} {producer : Option UUID} {now : Int} {e : SlotEvent} {h : List SlotEvent}
  {call : Call} {r : Act × Slot}

/-! ## What an offered sample does -/

/-- What is retired for the stream of the producer, and the sample that stays pending. -/
structure Retires (m : Slot) (producer : Option UUID) (retired : Finset UUID) (sample : Option Sample) : Prop where
  grows : m.retiredProducers ⊆ retired
  only : ∀ p ∈ retired, p ∈ m.retiredProducers ∨ m.mintedFor = some p ∧ producer ≠ some p
  current : ∀ p, m.mintedFor = some p → producer ≠ some p → p ∈ retired
  sample : ∀ s, sample = some s →
    m.sample = some s ∧ ∀ p, m.mintedFor = some p → producer ≠ some p → s.producer ≠ some p

theorem retire_retires (m : Slot) (producer : Option UUID) :
    ∃ retired sample stale, Retires m producer retired sample ∧
      m.retire producer = { m with retiredProducers := retired, sample := sample, staleRejected := stale } := by
  have hsame (hcurrent : ∀ p, m.mintedFor = some p → producer = some p) :
      Retires m producer m.retiredProducers m.sample := by
    refine ⟨subset_rfl, fun p hp => .inl hp, ?_, ?_⟩
    · exact fun p hp hne => absurd (hcurrent p hp) hne
    · exact fun s hs => ⟨hs, fun p hp hne => absurd (hcurrent p hp) hne⟩
  unfold retire
  split
  · rename_i hminted
    exact ⟨_, _, m.staleRejected, hsame (by simp [hminted]), rfl⟩
  · rename_i current hminted
    by_cases hreplacing : m.replacing producer = true
    · rw [if_pos hreplacing]
      have hne : producer ≠ some current := by simpa [replacing, hminted] using hreplacing
      have hretires (sample : Option Sample)
          (hsample : ∀ s, sample = some s → m.sample = some s ∧ s.producer ≠ some current) :
          Retires m producer (insert current m.retiredProducers) sample := by
        refine ⟨Finset.subset_insert _ _, ?_, ?_, ?_⟩
        · intro p hp
          rcases Finset.mem_insert.1 hp with rfl | hp
          · exact .inr ⟨hminted, hne⟩
          · exact .inl hp
        · intro p hp _
          cases hminted.symm.trans hp
          exact Finset.mem_insert_self _ _
        · intro s hs
          refine ⟨(hsample s hs).1, fun p hp _ => ?_⟩
          cases hminted.symm.trans hp
          exact (hsample s hs).2
      dsimp only
      split
      · rename_i hpending
        exact ⟨_, m.sample, m.staleRejected, hretires m.sample (by simp [hpending]), rfl⟩
      · rename_i s hpending
        split
        · exact ⟨_, none, _, hretires none nofun, rfl⟩
        · rename_i hkept
          refine ⟨_, m.sample, m.staleRejected, hretires m.sample ?_, rfl⟩
          intro s' hs'
          cases hpending.symm.trans hs'
          refine ⟨hs', fun hproducer => hkept ?_⟩
          simp [Slot.retired, hproducer]
    · rw [if_neg hreplacing]
      refine ⟨_, _, _, hsame ?_, rfl⟩
      intro p hp
      have : producer = m.mintedFor := by simpa [replacing] using hreplacing
      exact this.trans hp

/-- The slot after the transition to the stream of the producer. -/
inductive Follows (m : Slot) (producer : Option UUID) : Slot → Prop
  | same (hnew : m.newStream = false) (hsame : producer = m.mintedFor) : Follows m producer m
  | mints (retired : Finset UUID) (sample : Option Sample) (stale : Nat) (hretires : Retires m producer retired sample)
      (hadmitted : ∀ p, producer = some p → p ∈ m.retiredProducers → m.mintedFor = some p) :
    Follows m producer
      (mint { m with retiredProducers := retired, sample := sample, staleRejected := stale } producer)

theorem follow_follows (hadmitted : ∀ p, producer = some p → p ∈ m.retiredProducers → m.mintedFor = some p) :
    Follows m producer (m.follow producer) := by
  unfold follow
  dsimp only
  by_cases hmints : (m.newStream || m.replacing producer) = true
  · rw [if_pos hmints]
    obtain ⟨retired, sample, stale, hretires, heq⟩ := retire_retires m producer
    rw [heq]
    exact .mints retired sample stale hretires hadmitted
  · rw [if_neg hmints]
    simp only [Bool.not_eq_true, Bool.or_eq_false_iff] at hmints
    have hsame : producer = m.mintedFor := by simpa [replacing] using hmints.2
    have heq : m.retire producer = m := by
      unfold retire
      rw [hmints.2]
      cases m.mintedFor <;> rfl
    rw [heq]
    exact .same hmints.1 hsame

/-- What `_accept_locked` does. -/
inductive Accepted (m : Slot) (now : Int) (producer : Option UUID) : Act × Slot → Prop
  | refused (stale : Nat) (h : m.accepting = false ∨ m.historyExhausted = true ∨ m.retired producer = true) :
    Accepted m now producer (.quiet, { m with staleRejected := stale })
  | exhausts (stale : Nat) (hopen : m.historyExhausted = false) (hcurrent : m.mintedFor.isSome = true) :
    Accepted m now producer
      (.quiet, { m with historyExhausted := true, exhaustedNs := some now, sample := none, staleRejected := stale })
  | sampledOut (m₁ : Slot) (sampledOut : Nat) (hopen : m.historyExhausted = false) (hfollows : Follows m producer m₁) :
    Accepted m now producer (.quiet, { m₁ with sampledOut })
  | placed (m₁ : Slot) (replaced accepted : Nat) (hopen : m.historyExhausted = false) (hfollows : Follows m producer m₁) :
    Accepted m now producer
      (.accepted ⟨m₁.streamId, m₁.sequence + 1, now, producer⟩,
        { m₁ with
          replaced, accepted, sequence := m₁.sequence + 1, lastAcceptedNs := some now
          sample := some ⟨m₁.streamId, m₁.sequence + 1, now, producer⟩ })

theorem accept_accepted (m : Slot) (b : Binding) (now : Int) (producer : Option UUID) :
    Accepted m now producer (m.accept b now producer) := by
  unfold accept
  by_cases haccepting : (!m.accepting) = true
  · rw [if_pos haccepting]
    exact .refused m.staleRejected (.inl (by simpa using haccepting))
  rw [if_neg haccepting]
  by_cases hexhausted : m.historyExhausted = true
  · rw [if_pos hexhausted]
    exact .refused _ (.inr (.inl hexhausted))
  rw [if_neg hexhausted]
  have hopen : m.historyExhausted = false := by simpa using hexhausted
  by_cases hstale : (m.replacing producer && m.retired producer) = true
  · rw [if_pos hstale]
    exact .refused _ (.inr (.inr (Bool.and_eq_true_iff.1 hstale).2))
  rw [if_neg hstale]
  split
  · rename_i hfull
    simp only [Bool.and_eq_true] at hfull
    exact .exhausts _ hopen hfull.1.2
  · have hfollows : Follows m producer (m.follow producer) := by
      refine follow_follows ?_
      rintro p rfl hp
      by_contra hne
      refine hstale ?_
      simp [replacing, Slot.retired, hp, Ne.symm hne]
    unfold place
    split
    · exact .sampledOut _ _ hopen hfollows
    · exact .placed _ _ _ hopen hfollows

/-- What a call does: it offers a sample, interrupts the stream, takes what is pending, or leaves the slot. -/
inductive Stepped (b : Binding) (m : Slot) (call : Call) : Act × Slot → Prop
  | offered (now : Int) (producer : Option UUID) (last : Option Int) (r : Act × Slot)
      (hoffer : b.layout = true ∧ producer = none ∨
        b.layout = false ∧ ∃ streamId, producer = some streamId ∧ call = .offerLuma now streamId)
      (hr : Accepted { m with newStream := m.newStream || call.interrupts b m, lastUvcSequence := last } now producer r) :
    Stepped b m call r
  | interrupted (act : Act) (loss : Option Loss)
      (hact : act = .quiet ∨ ∃ now trusted, act = .lost ⟨now, trusted⟩ ∧
        ∀ exhausted, m.exhaustedNs = some exhausted → exhausted ≤ now → trusted = false)
      (hloss : ∀ pending, m.loss = some pending → pending.trusted = true → loss = some pending) :
    Stepped b m call (act, { m with newStream := true, lastUvcSequence := none, loss })
  | took (hcall : call = .cycle) :
    Stepped b m call (.taken m.sample m.loss, { m with sample := none, loss := none })
  | idle (accepting : Bool) (hcall : call.interrupts b m = false) : Stepped b m call (.quiet, { m with accepting })

theorem sourceUnavailable_stepped (call : Call) (now : Int) (trusted : Bool) :
    Stepped b m call (m.sourceUnavailable now trusted) := by
  unfold sourceUnavailable
  dsimp only
  split
  · exact .interrupted _ _ (.inl rfl) fun _ h _ => h
  · split
    · rename_i hall
      refine .interrupted _ _ (.inr ⟨now, _, rfl, ?_⟩) ?_
      · intro exhausted hexhausted hle
        simp [hexhausted, hle]
      · intro pending hpending htrusted
        simp [hpending, htrusted] at hall
    · exact .interrupted _ _ (.inl rfl) fun _ h _ => h

theorem step_stepped (b : Binding) (m : Slot) (call : Call) : Stepped b m call (step b call m) := by
  cases call with
  | onUvcFrame now sequence =>
    show Stepped b m _ (m.onUvcFrame b now sequence)
    unfold onUvcFrame
    split
    · rename_i hlayout
      refine .offered now none (some sequence) _ (.inl ⟨hlayout, rfl⟩) ?_
      rw [show Call.interrupts b m (.onUvcFrame now sequence) = m.restarts sequence by simp [Call.interrupts, hlayout]]
      exact accept_accepted _ b now none
    · rename_i hlayout
      exact .idle m.accepting (by simp [Call.interrupts, hlayout])
  | offerLuma now streamId =>
    show Stepped b m _ (m.offerLuma b now streamId)
    unfold offerLuma
    split
    · exact .idle m.accepting rfl
    · rename_i hlayout
      refine .offered now (some streamId) m.lastUvcSequence _ (.inr ⟨by simpa using hlayout, streamId, rfl, rfl⟩) ?_
      rw [show (m.newStream || Call.interrupts b m (.offerLuma now streamId)) = m.newStream from Bool.or_false _]
      exact accept_accepted m b now _
  | sourceUnavailable now trusted => exact sourceUnavailable_stepped _ now trusted
  | onUvcHealth now state =>
    show Stepped b m _ (m.onUvcHealth b now state)
    unfold onUvcHealth
    split
    · rename_i hlocal
      exact .idle m.accepting (by simpa [Call.interrupts] using hlocal)
    · cases state with
      | online => exact .interrupted _ _ (.inl rfl) fun _ h _ => h
      | _ => exact sourceUnavailable_stepped _ now _
  | cycle => exact .took rfl
  | accepting accepting => exact .idle accepting rfl

theorem stepped_of_event (he : e = Event.of (step b) e.before e.input) : Stepped b e.before e.input (e.output, e.after) := by
  rw [he]
  exact step_stepped b _ _

/-! ## Pending samples -/

/-- The invariant of the slot. -/
structure Inv (b : Binding) (m : Slot) : Prop where
  pending : ∀ s, m.sample = some s → s.producer = m.mintedFor ∨ s.producer = none
  fresh : ∀ p, m.mintedFor = some p → p ∉ m.retiredProducers
  exhausted : m.historyExhausted = true → m.sample = none
  raw : b.layout = true → m.mintedFor = none

/-- What was retired stays so, and an exhausted history. -/
structure Onward (m m' : Slot) : Prop where
  retired : m.retiredProducers ⊆ m'.retiredProducers
  exhausted : m.historyExhausted = true → m'.historyExhausted = true ∧ m'.exhaustedNs = m.exhaustedNs

theorem Onward.of_open (hopen : m.historyExhausted = false) (hgrows : m.retiredProducers ⊆ m'.retiredProducers) : Onward m m' := by
  refine ⟨hgrows, ?_⟩
  intro hexhausted
  cases hopen.symm.trans hexhausted

theorem Follows.inv (h : Inv b m) (hf : Follows m producer m') (hraw : b.layout = true → producer = none)
    (hopen : m.historyExhausted = false) :
    Inv b m' ∧ m.retiredProducers ⊆ m'.retiredProducers ∧ m'.mintedFor = producer ∧ m'.historyExhausted = false := by
  cases hf with
  | same hnew hsame => exact ⟨h, subset_rfl, hsame.symm, hopen⟩
  | mints retired sample stale hretires hadmitted =>
    refine ⟨⟨?_, ?_, ?_, hraw⟩, hretires.grows, rfl, hopen⟩
    · intro s hs
      obtain ⟨hbefore, hkept⟩ := hretires.sample s hs
      rcases h.pending s hbefore with hcurrent | hnone
      · -- a sample of the current stream stays pending only if that is the stream of the producer
        by_cases hp : ∃ p, m.mintedFor = some p ∧ producer ≠ some p
        · obtain ⟨p, hp, hne⟩ := hp
          exact absurd (hcurrent.trans hp) (hkept p hp hne)
        · push Not at hp
          cases hminted : m.mintedFor with
          | none => exact .inr (hcurrent.trans hminted)
          | some p => exact .inl (hcurrent.trans (hminted.trans (hp p hminted).symm))
      · exact .inr hnone
    · intro p hp hmem
      rcases hretires.only p hmem with hold | ⟨_, hne⟩
      · exact h.fresh p (hadmitted p hp hold) hold
      · exact hne hp
    · intro hexhausted
      cases hopen.symm.trans hexhausted

theorem Accepted.inv (h : Inv b m) (hr : Accepted m now producer r) (hraw : b.layout = true → producer = none) :
    Inv b r.2 ∧ Onward m r.2 := by
  cases hr with
  | refused stale _ => exact ⟨{ h with }, subset_rfl, fun hex => ⟨hex, rfl⟩⟩
  | exhausts stale hopen _ => exact ⟨{ h with pending := nofun, exhausted := fun _ => rfl }, .of_open hopen subset_rfl⟩
  | sampledOut m₁ _ hopen hfollows =>
    obtain ⟨hinv, hgrows, _, _⟩ := hfollows.inv h hraw hopen
    exact ⟨{ hinv with }, .of_open hopen hgrows⟩
  | placed m₁ _ _ hopen hfollows =>
    obtain ⟨hinv, hgrows, hproducer, hopen'⟩ := hfollows.inv h hraw hopen
    refine ⟨⟨?_, hinv.fresh, ?_, hinv.raw⟩, .of_open hopen hgrows⟩
    · intro s hs
      cases hs
      exact .inl hproducer.symm
    · intro hexhausted
      cases hopen'.symm.trans hexhausted

theorem Stepped.inv (h : Inv b m) (hr : Stepped b m call r) : Inv b r.2 ∧ Onward m r.2 := by
  cases hr with
  | offered now producer last _ hoffer hr =>
    have hraw : b.layout = true → producer = none := by
      rcases hoffer with ⟨_, hnone⟩ | ⟨hlayout, _⟩
      · exact fun _ => hnone
      · exact fun h => by cases h.symm.trans hlayout
    have h' : Inv b { m with newStream := m.newStream || call.interrupts b m, lastUvcSequence := last } := { h with }
    obtain ⟨hinv, hretired, hexhausted⟩ := hr.inv h' hraw
    exact ⟨hinv, hretired, hexhausted⟩
  | interrupted => exact ⟨{ h with }, subset_rfl, fun hex => ⟨hex, rfl⟩⟩
  | took _ => exact ⟨{ h with pending := nofun, exhausted := fun _ => rfl }, subset_rfl, fun hex => ⟨hex, rfl⟩⟩
  | idle accepting _ => exact ⟨{ h with }, subset_rfl, fun hex => ⟨hex, rfl⟩⟩

variable {m : Slot} {later earlier : List SlotEvent} {p current streamId : UUID} {loss : Loss} {s : Sample}

theorem inv_of_reaches (hs : Reaches (step b) {} h m) : Inv b m :=
  hs.invariant (P := Inv b)
    ⟨fun s hs => (by cases hs), fun p hp => (by cases hp), fun hex => (by cases hex), fun _ => rfl⟩
    fun call _ hinv => ((step_stepped b _ call).inv hinv).1

/-- From a state of the run on, what was retired stays so, and an exhausted history. -/
theorem onward_of_reaches (hs : Reaches (step b) {} (later ++ e :: earlier) m) : Onward e.after m := by
  refine hs.since (P := fun _ => Onward e.after) ⟨subset_rfl, fun hex => ⟨hex, rfl⟩⟩ fun call hs hbefore => ?_
  have hstep := ((step_stepped b _ call).inv (inv_of_reaches hs)).2
  refine ⟨hbefore.retired.trans hstep.retired, ?_⟩
  intro hexhausted
  obtain ⟨hex, hns⟩ := hbefore.exhausted hexhausted
  obtain ⟨hex', hns'⟩ := hstep.exhausted hex
  exact ⟨hex', hns'.trans hns⟩

theorem Follows.retired (hf : Follows m producer m') (hp : p ∈ m'.retiredProducers) :
    p ∈ m.retiredProducers ∨ m.mintedFor = some p ∧ m'.mintedFor ≠ some p := by
  cases hf with
  | same => exact .inl hp
  | mints retired sample stale hretires _ => exact hretires.only p hp

theorem Stepped.retired (hr : Stepped b m call r) (hp : p ∈ r.2.retiredProducers) :
    p ∈ m.retiredProducers ∨ m.mintedFor = some p ∧ r.2.mintedFor ≠ some p := by
  cases hr with
  | offered now producer last _ _ hr =>
    cases hr with
    | refused | exhausts => exact .inl hp
    | sampledOut m₁ _ _ hf | placed m₁ _ _ _ hf =>
      have := hf.retired hp
      exact this
  | interrupted | took | idle => exact .inl hp

theorem replaced_of_retired (hs : Reaches (step b) {} h m) (hp : p ∈ m.retiredProducers) : Replaced h p := by
  induction hs with
  | start => simp at hp
  | next hs call ih =>
    rename_i h m
    rcases (step_stepped b m call).retired hp with hold | hnow
    · obtain ⟨e, he, hreplaced⟩ := ih hold
      exact ⟨e, List.mem_cons_of_mem _ he, hreplaced⟩
    · exact ⟨_, List.mem_cons_self, hnow⟩

/-- A stream that was not replaced takes the place of the current one, or exhausts the history. -/
theorem offerLuma_replaces (hinv : Inv b m) (haccepting : m.accepting = true) (hcurrent : m.mintedFor = some current)
    (hne : current ≠ streamId) (hfresh : streamId ∉ m.retiredProducers) (now : Int) :
    current ∈ (step b (.offerLuma now streamId) m).2.retiredProducers ∨
      (step b (.offerLuma now streamId) m).2.historyExhausted = true := by
  have hlayout : b.layout = false := by
    rw [← Bool.not_eq_true]
    intro hraw
    cases hcurrent.symm.trans (hinv.raw hraw)
  have hr := accept_accepted m b now (some streamId)
  have heq : step b (.offerLuma now streamId) m = m.accept b now (some streamId) := by simp [step, offerLuma, hlayout]
  rw [heq]
  have hother : some streamId ≠ some current := fun h => hne (Option.some.inj h).symm
  have hfollows {m₁ : Slot} (hf : Follows m (some streamId) m₁) : current ∈ m₁.retiredProducers := by
    cases hf with
    | same _ hsame => exact absurd (hsame.trans hcurrent) hother
    | mints retired sample stale hretires _ => exact hretires.current current hcurrent hother
  generalize m.accept b now (some streamId) = r at hr
  cases hr with
  | refused _ h =>
    rcases h with h | h | h
    · cases haccepting.symm.trans h
    · exact .inr h
    · simp [Slot.retired, hfresh] at h
  | exhausts => exact .inr rfl
  | sampledOut m₁ _ _ hf | placed m₁ _ _ _ hf =>
    have := hfollows hf
    exact .inl this

theorem Stepped.exhausts (hr : Stepped b m call r) (hinv : Inv b m) (hopen : m.historyExhausted = false)
    (hexhausted : r.2.historyExhausted = true) : ∃ now streamId, call = .offerLuma now streamId ∧ r.2.exhaustedNs = some now := by
  have hfollows {m₀ m₁ : Slot} {producer : Option UUID} (hopen : m₀.historyExhausted = false) (hf : Follows m₀ producer m₁) :
      m₁.historyExhausted = false := by
    cases hf <;> exact hopen
  cases hr with
  | offered now producer last _ hoffer hr =>
    cases hr with
    | refused => cases hopen.symm.trans hexhausted
    | exhausts _ _ hcurrent =>
      rcases hoffer with ⟨hlayout, _⟩ | ⟨_, streamId, _, hcall⟩
      · simp [hinv.raw hlayout] at hcurrent
      · exact ⟨now, streamId, hcall, rfl⟩
    | sampledOut m₁ _ hopen hf | placed m₁ _ _ hopen hf => cases (hfollows hopen hf).symm.trans hexhausted
  | interrupted | took | idle => cases hopen.symm.trans hexhausted

/-- No loss at or after the time when the history was exhausted is trusted. -/
theorem Stepped.untrusted {exhausted : Int} (hr : Stepped b m call r) (hlost : r.1 = .lost loss)
    (hexhausted : m.exhaustedNs = some exhausted) (hle : exhausted ≤ loss.monotonicNs) : loss.trusted = false := by
  cases hr with
  | offered now producer last _ _ hr => cases hr <;> cases hlost
  | interrupted act _ hact _ =>
    rcases hact with rfl | ⟨now, trusted, rfl, huntrusted⟩
    · cases hlost
    · cases hlost
      exact huntrusted exhausted hexhausted hle
  | took | idle => cases hlost

/-- A pending loss that is trusted stays so until the worker takes it. -/
theorem Stepped.holds_loss (hr : Stepped b m call r) (hloss : m.loss = some loss) (htrusted : loss.trusted = true)
    (hcall : call ≠ .cycle) : r.2.loss = some loss := by
  cases hr with
  | offered now producer last _ _ hr =>
    cases hr with
    | refused | exhausts => exact hloss
    | sampledOut m₁ _ _ hf | placed m₁ _ _ _ hf => cases hf <;> exact hloss
  | interrupted act _ _ hkept => exact hkept loss hloss htrusted
  | took hcycle => exact absurd hcycle hcall
  | idle => exact hloss

theorem Stepped.takes (hr : Stepped b m call r) (ht : takes ⟨m, call, r.1, r.2⟩ = some s) : m.sample = some s := by
  cases hr with
  | took => exact ht
  | offered now producer last _ _ hr => cases hr <;> cases ht
  | interrupted act loss hact _ =>
    rcases hact with rfl | ⟨_, _, rfl, _⟩ <;> cases ht
  | idle => cases ht

/-- A pending sample was accepted by a call, since which no sample was accepted or taken. -/
def AcceptedBy (h : List SlotEvent) (s : Sample) : Prop :=
  ∃ later e earlier, h = later ++ e :: earlier ∧ e.output = .accepted s ∧
    ∀ y ∈ later, takes y = none ∧ ∀ s', y.output ≠ .accepted s'

theorem Stepped.sample (hr : Stepped b m call r) (hs : r.2.sample = some s) :
    r.1 = .accepted s ∨ m.sample = some s ∧ Capture.takes ⟨m, call, r.1, r.2⟩ = none ∧ ∀ s', r.1 ≠ .accepted s' := by
  cases hr with
  | offered now producer last _ _ hr =>
    cases hr with
    | refused => exact .inr ⟨hs, rfl, nofun⟩
    | exhausts => cases hs
    | sampledOut m₁ _ _ hf =>
      refine .inr ⟨?_, rfl, nofun⟩
      cases hf with
      | same => exact hs
      | mints retired sample stale hretires _ => exact (hretires.sample s hs).1
    | placed m₁ _ _ _ hf =>
      cases hs
      exact .inl rfl
  | interrupted act loss hact _ =>
    refine .inr ⟨hs, ?_⟩
    rcases hact with rfl | ⟨_, _, rfl, _⟩ <;> exact ⟨rfl, nofun⟩
  | took => cases hs
  | idle => exact .inr ⟨hs, rfl, nofun⟩

theorem acceptedBy_of_reaches (hs : Reaches (step b) {} h m) (hsample : m.sample = some s) : AcceptedBy h s := by
  induction hs with
  | start => cases hsample
  | next hs call ih =>
    rename_i h m
    rcases (step_stepped b m call).sample hsample with haccepted | ⟨hbefore, htakes, hnone⟩
    · exact ⟨[], _, _, rfl, haccepted, List.forall_mem_nil _⟩
    · obtain ⟨later, e, earlier, rfl, he, hlater⟩ := ih hbefore
      exact ⟨_ :: later, e, earlier, rfl, he, List.forall_mem_cons.2 ⟨⟨htakes, hnone⟩, hlater⟩⟩

/-! ## Runtime streams -/

/-- What a call does to the runtime stream: it stays as long as nothing interrupts it, or a new one is minted. -/
inductive Identified (b : Binding) (e : SlotEvent) : Prop
  | keeps (hid : e.after.streamId = e.before.streamId) (hminted : e.after.minted = e.before.minted)
      (hfor : e.after.mintedFor = e.before.mintedFor) (hsequence : e.before.sequence ≤ e.after.sequence)
      (hnew : e.after.newStream = false → e.before.newStream = false ∧ e.input.interrupts b e.before = false)
      (haccepted : ∀ s, e.output = .accepted s → s.streamId = e.before.streamId ∧ s.producer = e.before.mintedFor ∧
        s.sequence = e.after.sequence ∧ e.before.sequence < s.sequence ∧ e.after.newStream = false)
  | mints (hid : e.after.streamId = some e.before.minted) (hminted : e.after.minted = e.before.minted + 1)
      (haccepted : ∀ s, e.output = .accepted s → s.streamId = e.after.streamId ∧ s.producer = e.after.mintedFor ∧
        s.sequence = e.after.sequence)

theorem Stepped.identified (hr : Stepped b m call r) : Identified b ⟨m, call, r.1, r.2⟩ := by
  have hquiet (m' : Slot) (act : Act) (hact : ∀ s, act ≠ .accepted s) (hid : m'.streamId = m.streamId)
      (hminted : m'.minted = m.minted) (hfor : m'.mintedFor = m.mintedFor) (hsequence : m'.sequence = m.sequence)
      (hnew : m'.newStream = false → m.newStream = false ∧ call.interrupts b m = false) :
      Identified b ⟨m, call, act, m'⟩ :=
    .keeps hid hminted hfor hsequence.ge hnew fun s hs => absurd hs (hact s)
  cases hr with
  | offered now producer last _ _ hr =>
    cases hr with
    | refused | exhausts => exact hquiet _ _ nofun rfl rfl rfl rfl Bool.or_eq_false_iff.1
    | sampledOut m₁ _ _ hf =>
      cases hf with
      | same => exact hquiet _ _ nofun rfl rfl rfl rfl Bool.or_eq_false_iff.1
      | mints => exact .mints rfl rfl nofun
    | placed m₁ _ _ _ hf =>
      cases hf with
      | same hnew hsame =>
        refine .keeps rfl rfl rfl (by dsimp only; omega) (fun _ => Bool.or_eq_false_iff.1 hnew) ?_
        intro s hs
        cases hs
        exact ⟨rfl, hsame, rfl, by dsimp only; omega, hnew⟩
      | mints =>
        refine .mints rfl rfl ?_
        intro s hs
        cases hs
        exact ⟨rfl, rfl, rfl⟩
  | interrupted act loss hact _ =>
    refine hquiet _ act ?_ rfl rfl rfl rfl nofun
    rcases hact with rfl | ⟨_, _, rfl, _⟩ <;> exact nofun
  | took hcall => exact hquiet _ _ nofun rfl rfl rfl rfl fun hnew => ⟨hnew, hcall ▸ rfl⟩
  | idle _ hcall => exact hquiet _ _ nofun rfl rfl rfl rfl fun hnew => ⟨hnew, hcall⟩

/-- The accepted samples of a run and the current runtime stream. -/
structure Identity (b : Binding) (h : List SlotEvent) (m : Slot) : Prop where
  issued : ∀ e ∈ h, ∀ s, e.output = .accepted s → ∃ n, s.streamId = some n ∧ n < m.minted
  current : ∀ n, m.streamId = some n → n < m.minted
  named : m.newStream = false → ∃ n, m.streamId = some n
  continues : ∀ later e earlier s, h = later ++ e :: earlier → e.output = .accepted s → s.streamId = m.streamId →
    s.producer = m.mintedFor ∧ s.sequence ≤ m.sequence ∧ (m.newStream = false → ∀ y ∈ later, interrupts b y = false)

theorem Identity.event (hi : Identity b h e.before) (hid : Identified b e) : Identity b (e :: h) e.after := by
  cases hid with
  | keeps hid hminted hfor hsequence hnew haccepted =>
    refine ⟨?_, by rw [hid, hminted]; exact hi.current, ?_, ?_⟩
    · rw [hminted]
      refine List.forall_mem_cons.2 ⟨?_, hi.issued⟩
      intro s hs
      obtain ⟨hsid, _, _, _, hsnew⟩ := haccepted s hs
      obtain ⟨n, hn⟩ := hi.named (hnew hsnew).1
      exact ⟨n, hsid.trans hn, hi.current n hn⟩
    · intro hafter
      rw [hid]
      exact hi.named (hnew hafter).1
    · intro later x earlier s heq hs hsid
      rcases List.cons_eq_append_iff.1 heq with ⟨rfl, hcons⟩ | ⟨rest, rfl, rfl⟩
      · cases hcons
        obtain ⟨_, hproducer, hseq, _, _⟩ := haccepted s hs
        exact ⟨hproducer.trans hfor.symm, hseq.le, fun _ => List.forall_mem_nil _⟩
      · obtain ⟨hproducer, hseq, hquiet⟩ := hi.continues rest x earlier s rfl hs (hsid.trans hid)
        refine ⟨hproducer.trans hfor.symm, hseq.trans hsequence, ?_⟩
        intro hafter
        obtain ⟨hbefore, hcall⟩ := hnew hafter
        exact List.forall_mem_cons.2 ⟨by simp [interrupts, hcall, hfor], hquiet hbefore⟩
  | mints hid hminted haccepted =>
    have hold : ∀ x ∈ h, ∀ s, x.output = .accepted s → s.streamId ≠ e.after.streamId := by
      intro x hx s hs heq
      obtain ⟨n, hn, hlt⟩ := hi.issued x hx s hs
      cases hn.symm.trans (heq.trans hid)
      omega
    refine ⟨?_, ?_, fun _ => ⟨_, hid⟩, ?_⟩
    · rw [hminted]
      refine List.forall_mem_cons.2 ⟨?_, ?_⟩
      · intro s hs
        exact ⟨_, (haccepted s hs).1.trans hid, Nat.lt_succ_self _⟩
      · intro x hx s hs
        obtain ⟨n, hn, hlt⟩ := hi.issued x hx s hs
        exact ⟨n, hn, Nat.lt_succ_of_lt hlt⟩
    · intro n hn
      cases hid.symm.trans hn
      rw [hminted]
      exact Nat.lt_succ_self _
    · intro later x earlier s heq hs hsid
      rcases List.cons_eq_append_iff.1 heq with ⟨rfl, hcons⟩ | ⟨rest, rfl, rfl⟩
      · cases hcons
        obtain ⟨_, hproducer, hseq⟩ := haccepted s hs
        exact ⟨hproducer, hseq.le, fun _ => List.forall_mem_nil _⟩
      · exact absurd hsid (hold x (by simp) s hs)

theorem identity_of_reaches (hs : Reaches (step b) {} h m) : Identity b h m := by
  induction hs with
  | start => exact ⟨List.forall_mem_nil _, fun n hn => (by cases hn), fun hnew => (by cases hnew), by simp⟩
  | next hs call ih => exact .event ih (step_stepped b _ call).identified

/-- Two accepted samples of one runtime stream come from one producer stream, with nothing between them that interrupts it. -/
theorem accepted_continues {mid : List SlotEvent} {x y : SlotEvent} {t : Sample}
    (hs : Reaches (step b) {} (later ++ y :: (mid ++ x :: earlier)) m) (hx : x.output = .accepted s) (hy : y.output = .accepted t)
    (hstream : s.streamId = t.streamId) :
    s.producer = t.producer ∧ s.sequence < t.sequence ∧ ∀ z ∈ y :: mid, interrupts b z = false := by
  obtain ⟨hreach, heq⟩ := hs.event
  have hi := identity_of_reaches hreach
  have hid : Identified b y := (stepped_of_event heq).identified
  cases hid with
  | keeps hid _ hfor _ hnew haccepted =>
    obtain ⟨htid, hproducer, _, hlt, hafter⟩ := haccepted t hy
    obtain ⟨hsproducer, hsequence, hquiet⟩ := hi.continues mid x earlier s rfl hx (hstream.trans htid)
    obtain ⟨hbefore, hcall⟩ := hnew hafter
    refine ⟨hsproducer.trans hproducer.symm, hsequence.trans_lt hlt, ?_⟩
    exact List.forall_mem_cons.2 ⟨by simp [interrupts, hcall, hfor], hquiet hbefore⟩
  | mints hid _ haccepted =>
    obtain ⟨n, hn, hlt⟩ := hi.issued x (by simp) s hx
    cases hn.symm.trans (hstream.trans ((haccepted t hy).1.trans hid))
    omega

section Onward

variable {later earlier : List SlotEvent} {y : SlotEvent}

/-- The stream that an accepted offer of a new one replaces is not taken by a later call. -/
theorem replaced_not_taken (hs : Reaches (step b) {} (later ++ e :: earlier) m) (hinput : e.input = .offerLuma now streamId)
    (haccepting : e.before.accepting = true) (hcurrent : e.before.mintedFor = some current) (hne : current ≠ streamId)
    (hfresh : ¬Replaced earlier streamId) (hy : y ∈ later) (htakes : takes y = some s) : s.producer ≠ some current := by
  intro hproducer
  obtain ⟨between, hreach, heq⟩ := hs.event_after hy
  have hsample := (stepped_of_event heq).takes htakes
  have hinv := inv_of_reaches hreach
  obtain ⟨hbefore, he⟩ := hreach.event
  have honward := onward_of_reaches hreach
  have hgone := offerLuma_replaces (inv_of_reaches hbefore) haccepting hcurrent hne
    (fun hretired => hfresh (replaced_of_retired hbefore hretired)) now
  rw [← hinput, show (step b e.input e.before).2 = e.after by rw [he]; rfl] at hgone
  rcases hgone with hretired | hexhausted
  · rcases hinv.pending s hsample with hminted | hnone
    · exact hinv.fresh current (hminted.symm.trans hproducer) (honward.retired hretired)
    · cases hnone.symm.trans hproducer
  · cases (hinv.exhausted (honward.exhausted hexhausted).1).symm.trans hsample

/-- The next cycle takes a trusted loss that is pending. -/
theorem cycle_takes_loss {newer older : List SlotEvent} (hs : Reaches (step b) {} (newer ++ y :: (older ++ e :: earlier)) m)
    (hloss : e.after.loss = some loss) (htrusted : loss.trusted = true) (hy : y.input = .cycle)
    (holder : ∀ z ∈ older, z.input ≠ .cycle) : ∃ sample, y.output = .taken sample (some loss) := by
  obtain ⟨hreach, heq⟩ := hs.event
  have hpending : y.before.loss = some loss := by
    refine hreach.since (P := fun older m => (∀ z ∈ older, z.input ≠ .cycle) → m.loss = some loss) (fun _ => hloss) ?_ holder
    intro older m call _ ih holder
    obtain ⟨hcall, holder⟩ := List.forall_mem_cons.1 holder
    exact (step_stepped b m call).holds_loss (ih holder) htrusted hcall
  rw [heq, hy]
  exact ⟨y.before.sample, congrArg (Act.taken _) hpending⟩

/-- Nothing is taken after the history was exhausted, and no loss from then on is trusted. -/
theorem exhausted_not_taken (hs : Reaches (step b) {} (later ++ e :: earlier) m) (hopen : e.before.historyExhausted = false)
    (hexhausted : e.after.historyExhausted = true) :
    ∃ exhausted streamId, e.input = .offerLuma exhausted streamId ∧ (∀ y ∈ later, takes y = none ∧
      ∀ loss, y.output = .lost loss → exhausted ≤ loss.monotonicNs → loss.trusted = false) ∧
      ∀ newer y older loss, later = newer ++ y :: older → e.before.loss = some loss → loss.trusted = true → y.input = .cycle →
        (∀ z ∈ older, z.input ≠ .cycle) → ∃ sample, y.output = .taken sample (some loss) := by
  obtain ⟨hbefore, he⟩ := hs.event
  have he := stepped_of_event he
  obtain ⟨exhausted, streamId, hinput, hns⟩ := he.exhausts (inv_of_reaches hbefore) hopen hexhausted
  refine ⟨exhausted, streamId, hinput, ?_, ?_⟩
  case refine_2 =>
    rintro newer y older loss rfl hloss htrusted hy holder
    rw [List.append_assoc] at hs
    refine cycle_takes_loss hs (he.holds_loss hloss htrusted ?_) htrusted hy holder
    simp [hinput]
  intro y hy
  obtain ⟨between, hreach, heq⟩ := hs.event_after hy
  obtain ⟨hex, hex'⟩ := (onward_of_reaches hreach).exhausted hexhausted
  constructor
  · cases htakes : takes y with
    | none => rfl
    | some s => cases ((inv_of_reaches hreach).exhausted hex).symm.trans ((stepped_of_event heq).takes htakes)
  · intro loss hlost hle
    exact (stepped_of_event heq).untrusted hlost (hex'.trans hns) hle

end Onward

/-- A sample of a replaced producer stream is never taken, nor is any sample after the history was exhausted, and no loss
after that is trusted; a trusted loss that was pending then is taken by the next cycle all the same. A sample that the worker
takes was accepted, and two accepted samples carry one runtime stream only if they come from one producer stream with nothing
between them that interrupts it; their sequence numbers increase. -/
theorem replaced_stream_not_taken {h : List SlotEvent} {m : Slot} (hs : Reaches (step b) {} h m) :
    (∀ later e earlier now current streamId, h = later ++ e :: earlier → e.input = .offerLuma now streamId →
      e.before.accepting = true → e.before.mintedFor = some current → current ≠ streamId → ¬Replaced earlier streamId →
      ∀ y ∈ later, ∀ s, takes y = some s → s.producer ≠ some current) ∧
    (∀ later e earlier, h = later ++ e :: earlier → e.before.historyExhausted = false → e.after.historyExhausted = true →
      ∃ exhausted streamId, e.input = .offerLuma exhausted streamId ∧ (∀ y ∈ later, takes y = none ∧
        ∀ loss, y.output = .lost loss → exhausted ≤ loss.monotonicNs → loss.trusted = false) ∧
        ∀ newer y older loss, later = newer ++ y :: older → e.before.loss = some loss → loss.trusted = true →
          y.input = .cycle → (∀ z ∈ older, z.input ≠ .cycle) → ∃ sample, y.output = .taken sample (some loss)) ∧
    (∀ later e earlier s, h = later ++ e :: earlier → takes e = some s → AcceptedBy earlier s) ∧
    ∀ later y mid x earlier s t, h = later ++ y :: (mid ++ x :: earlier) → x.output = .accepted s → y.output = .accepted t →
      s.streamId = t.streamId →
      s.producer = t.producer ∧ s.sequence < t.sequence ∧ ∀ z ∈ y :: mid, interrupts b z = false := by
  refine ⟨?_, ?_, ?_, ?_⟩
  · rintro later e earlier now current streamId rfl hinput haccepting hcurrent hne hfresh y hy s htakes
    exact replaced_not_taken hs hinput haccepting hcurrent hne hfresh hy htakes
  · rintro later e earlier rfl hopen hexhausted
    exact exhausted_not_taken hs hopen hexhausted
  · rintro later e earlier s rfl htakes
    obtain ⟨hreach, heq⟩ := hs.event
    exact acceptedBy_of_reaches hreach ((stepped_of_event heq).takes htakes)
  · rintro later y mid x earlier s t rfl hx hy hstream
    exact accepted_continues hs hx hy hstream

/-- A stream takes the place of another one, though its first sample is sampled out; the other one is offered again. -/
def resumed : List Call := [.offerLuma 0 7, .offerLuma 1 8, .offerLuma 6 7, .cycle]

theorem replaced_stream_not_taken_resumed :
    let h := (perform (step ⟨false, false, 5⟩) {} resumed).1
    ∀ y ∈ h.take 2, ∀ s, takes y = some s → s.producer ≠ some 7 := by
  have hs := Reaches.perform (step ⟨false, false, 5⟩) {} resumed
  refine (replaced_stream_not_taken hs).1 _ _ _ 1 7 8 rfl rfl rfl rfl (by decide) ?_
  rintro ⟨e, he, hbefore, _⟩
  rcases List.mem_singleton.1 he with rfl
  cases hbefore

end Sentinel.Detection.Capture
