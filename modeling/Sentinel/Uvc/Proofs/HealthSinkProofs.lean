import Sentinel.Uvc.HealthSink

/-!
# The health sink loses no latest event

`Log` is what a run submitted, removed and delivered. `Sound` accounts for every submitted event, and `Asserts` is what a
thread knows where it stands: the one that `_running` is set for knows which event is in flight.
-/

namespace Sentinel.Uvc.HealthSink

/-! ## The event that an overflow removes -/

theorem scan_newer (source : UUID) (k : Nat) (items : List HealthEvent) :
    (scan source k items).2 = items.map HealthEvent.source ++ [source] := by
  induction items generalizing k with
  | nil => rfl
  | cons item items ih =>
    rw [scan]
    dsimp only
    rw [ih, List.map_cons, List.cons_append]

variable {source : UUID} {n : Nat} {out : List Act} {i : Input}

theorem scan_superseded {k : Nat} {items : List HealthEvent} (h : ¬(items.map HealthEvent.source ++ [source]).Nodup) :
    ∃ a x b, items = a ++ x :: b ∧ (scan source k items).1 = k + a.length ∧
      x.source ∈ b.map HealthEvent.source ++ [source] := by
  induction items generalizing k with
  | nil => exact absurd (List.nodup_singleton source) h
  | cons item items ih =>
    rw [scan]
    dsimp only
    rw [scan_newer]
    by_cases hmem : item.source ∈ items.map HealthEvent.source ++ [source]
    · exact ⟨[], item, items, rfl, by rw [if_pos hmem]; rfl, hmem⟩
    · have hrest : ¬(items.map HealthEvent.source ++ [source]).Nodup := by
        intro hnodup
        exact h (List.nodup_cons.2 ⟨hmem, hnodup⟩)
      obtain ⟨a, x, b, hcut, hindex, hx⟩ := ih (k := k + 1) hrest
      refine ⟨item :: a, x, b, by rw [hcut, List.cons_append], ?_, hx⟩
      rw [if_neg hmem, hindex, List.length_cons]
      omega

/-- With no more sources than the queue holds, a full queue has an event that a later one of its source supersedes. -/
theorem superseded_spec {S : Finset UUID} {maxPending : Nat} {pending : List HealthEvent} (hS : S.card ≤ maxPending)
    (hpending : ∀ e ∈ pending, e.source ∈ S) (hsource : source ∈ S) (hfull : maxPending ≤ pending.length) :
    ∃ a x b, pending = a ++ x :: b ∧ pending[superseded pending source]? = some x ∧
      pending.eraseIdx (superseded pending source) = a ++ b ∧ x.source ∈ b.map HealthEvent.source ++ [source] := by
  have hdup : ¬(pending.map HealthEvent.source ++ [source]).Nodup := by
    intro hnodup
    have hsub : (pending.map HealthEvent.source ++ [source]).toFinset ⊆ S := by
      intro x hx
      simp only [List.mem_toFinset, List.mem_append, List.mem_map, List.mem_singleton] at hx
      rcases hx with ⟨e, he, rfl⟩ | rfl
      · exact hpending e he
      · exact hsource
    have hcard := Finset.card_le_card hsub
    rw [List.toFinset_card_of_nodup hnodup] at hcard
    simp at hcard
    omega
  obtain ⟨a, x, b, rfl, hindex, hx⟩ := scan_superseded (k := 0) hdup
  rw [zero_add] at hindex
  exact ⟨a, x, b, rfl, by simp [superseded, hindex], by simp [superseded, hindex, List.eraseIdx_append_of_length_le], hx⟩

/-! ## What holds of the shared state -/

/-- What a run submitted, removed, called the sink with and delivered, the latest first. -/
structure Log where
  submits : List HealthEvent
  removals : List HealthEvent
  reaches : List HealthEvent
  deliveries : List HealthEvent

def log (out : List Act) : Log := ⟨submits out, removals out, reaches out, deliveries out⟩

/-- The later of two events of a log. -/
def Later (later earlier : HealthEvent) : Prop := earlier.number < later.number

/-- The events that were not removed, the latest first. -/
def kept (l : Log) (m : Shared) : List HealthEvent := m.pending.reverse ++ m.inFlight.toList ++ l.deliveries

/-- The events that were submitted are accounted for, in order. -/
structure Sound (S : Finset UUID) (maxPending : Nat) (l : Log) (m : Shared) : Prop where
  sources : ∀ e ∈ m.pending, e.source ∈ S
  bounded : m.pending.length ≤ maxPending
  order : (kept l m).Pairwise Later
  below : ∀ e ∈ l.submits, e.number < m.submitted
  numbers : l.submits.Pairwise Later
  account : l.submits.Perm (kept l m ++ l.removals)
  superseded : ∀ e ∈ l.removals, ∃ later ∈ l.submits, later.source = e.source ∧ Later later e
  coalesced : m.coalesced = l.removals.length
  quiet : m.idle = true → m.pending = [] ∧ m.inFlight = none
  free : m.running = none → m.inFlight = none ∧ l.reaches = l.deliveries
  reach : l.reaches = l.deliveries ∨ ∃ e, m.inFlight = some e ∧ l.reaches = e :: l.deliveries

/-- The thread that `_running` is set for, with nothing in flight. -/
def Holds (t : Thread) (l : Log) (m : Shared) : Prop :=
  m.running = some t ∧ m.inFlight = none ∧ l.reaches = l.deliveries

/-- What a thread knows where it stands. -/
def Asserts (t : Thread) (l : Log) (m : Shared) : Pc → Prop
  | .outside => ∀ n, t = .delivery n → n < m.started → Holds t l m
  | .resuming _ | .waiting _ => ∃ n, t = .caller n
  | .starting _ | .startFailed _ => (∃ n, t = .caller n) ∧ Holds t l m
  | .looping => Holds t l m
  | .calling e => m.running = some t ∧ m.inFlight = some e ∧ l.reaches = l.deliveries
  | .sinking e | .failing e | .finishing e => m.running = some t ∧ m.inFlight = some e ∧ l.reaches = e :: l.deliveries
  | .done => True

section Step

variable {S : Finset UUID} {maxPending : Nat} {l l' : Log} {m m' : Shared} {t u : Thread} {pc : Pc}

/-- A thread that `_running` is not set for knows nothing that another thread could change, unless that starts it. -/
theorem Asserts.free (h : Asserts u l m pc) (hne : m.running ≠ some u)
    (hstarted : ∀ n, u = .delivery n → n < m'.started → n < m.started ∨ Holds u l' m') : Asserts u l' m' pc := by
  cases pc with
  | outside =>
    intro n hn hlt
    rcases hstarted n hn hlt with hlt | hholds
    · exact absurd (h n hn hlt).1 hne
    · exact hholds
  | resuming | waiting => exact h
  | starting | startFailed => exact absurd h.2.1 hne
  | looping | calling | sinking | failing | finishing => exact absurd h.1 hne
  | done => trivial

theorem resumed_asserts {settling : Bool} : Asserts (.caller n) l m (resumed settling m') := by
  cases settling
  · intro k hk
    cases hk
  · exact ⟨n, rfl⟩

variable {e : HealthEvent} {rest : List HealthEvent}

theorem Sound.number_lt (h : Sound S maxPending l m) (he : e ∈ kept l m ++ l.removals) :
    e.number < m.submitted := h.below e (h.account.mem_iff.2 he)

theorem mem_kept (he : e ∈ m.pending) : e ∈ kept l m := by simp [kept, he]

theorem Sound.append (h : Sound S maxPending l m) (hsource : source ∈ S) (removed : Option HealthEvent)
    (hsub : rest.Sublist m.pending) (hperm : m.pending.Perm (removed.toList ++ rest)) (hlength : rest.length < maxPending)
    (hremoved : ∀ x ∈ removed, ∃ y ∈ rest ++ [⟨source, m.submitted⟩], y.source = x.source ∧ Later y x) :
    Sound S maxPending ⟨⟨source, m.submitted⟩ :: l.submits, removed.toList ++ l.removals, l.reaches, l.deliveries⟩
      { m with
        pending := rest ++ [⟨source, m.submitted⟩], idle := false, coalesced := m.coalesced + removed.toList.length
        submitted := m.submitted + 1 } := by
  refine ⟨?_, ?_, ?_, ?_, ?_, ?_, ?_, ?_, by simp, h.free, h.reach⟩
  · intro e he
    rcases List.mem_append.1 he with he | he
    · exact h.sources e (hsub.subset he)
    · rw [List.mem_singleton.1 he]
      exact hsource
  · simpa using hlength
  · have hkept : (rest.reverse ++ m.inFlight.toList ++ l.deliveries).Sublist (kept l m) :=
      (hsub.reverse.append_right _).append_right _
    simp only [kept, List.reverse_append, List.reverse_singleton, List.cons_append]
    refine List.pairwise_cons.2 ⟨?_, h.order.sublist hkept⟩
    intro e he
    exact h.number_lt (List.mem_append_left _ (hkept.subset he))
  · intro e he
    rcases List.mem_cons.1 he with rfl | he
    · exact Nat.lt_succ_self _
    · exact (h.below e he).trans (Nat.lt_succ_self _)
  · exact List.pairwise_cons.2 ⟨h.below, h.numbers⟩
  · rw [List.perm_iff_count]
    intro e
    have hcount := h.account.count_eq e
    have hpending := hperm.count_eq e
    simp only [kept, List.count_append, List.count_cons, List.count_reverse, List.count_nil] at hcount hpending ⊢
    omega
  · intro e he
    rcases List.mem_append.1 he with he | he
    · obtain ⟨y, hy, hsame, hlater⟩ := hremoved e (by simpa using he)
      refine ⟨y, ?_, hsame, hlater⟩
      rcases List.mem_append.1 hy with hy | hy
      · exact List.mem_cons_of_mem _ (h.account.mem_iff.2 (List.mem_append_left _ (mem_kept (hsub.subset hy))))
      · rw [List.mem_singleton.1 hy]
        exact List.mem_cons_self
    · obtain ⟨y, hy, hlater⟩ := h.superseded e he
      exact ⟨y, List.mem_cons_of_mem _ hy, hlater⟩
  · rw [List.length_append, h.coalesced, Nat.add_comm]

theorem Sound.submit (h : Sound S maxPending (log out) m) (hS : S.card ≤ maxPending) (hsource : source ∈ S) :
    Sound S maxPending (log ((m.submit maxPending source).1 :: out)) (m.submit maxPending source).2 := by
  have hcard : 0 < S.card := Finset.card_pos.2 ⟨source, hsource⟩
  unfold Shared.submit
  dsimp only
  by_cases hfull : m.pending.length ≥ maxPending
  · rw [if_pos hfull]
    obtain ⟨a, x, b, hcut, hget, herase, hx⟩ := superseded_spec hS h.sources hsource hfull
    rw [hget, herase]
    refine h.append hsource (some x) ?_ ?_ ?_ ?_
    · rw [hcut]
      exact List.Sublist.append_left (List.sublist_cons_self x b) a
    · rw [hcut]
      exact List.perm_middle
    · have := h.bounded
      rw [hcut] at this
      simp at this ⊢
      omega
    · intro x' hx'
      cases hx'
      have hlater : ∀ y ∈ b, Later y x := by
        have hpairwise := (List.pairwise_append.1 (List.pairwise_append.1 h.order).1).1
        rw [hcut, List.pairwise_reverse] at hpairwise
        exact (List.pairwise_cons.1 (List.pairwise_append.1 hpairwise).2.1).1
      simp only [List.mem_append, List.mem_map, List.mem_singleton] at hx
      rcases hx with ⟨y, hy, hsame⟩ | hsame
      · exact ⟨y, by simp [hy], hsame, hlater y hy⟩
      · have hx : x ∈ m.pending := by simp [hcut]
        exact ⟨⟨source, m.submitted⟩, by simp, hsame.symm, h.number_lt (List.mem_append_left _ (mem_kept hx))⟩
  · rw [if_neg hfull]
    refine h.append hsource none (List.Sublist.refl _) (List.Perm.refl _) (not_le.1 hfull) ?_
    intro x hx
    cases hx

theorem Sound.running (h : Sound S maxPending l m) (running : Option Thread) (started startFailures : Nat)
    (hfree : m.inFlight = none ∧ l.reaches = l.deliveries) :
    Sound S maxPending l { m with running := running, started := started, startFailures := startFailures } :=
  { h with free := fun _ => hfree }

theorem Sound.take (h : Sound S maxPending l m) (ht : Holds t l m) (hpending : m.pending = e :: rest) :
    Sound S maxPending l { m with pending := rest, inFlight := some e } := by
  obtain ⟨hrunning, hflight, hreaches⟩ := ht
  have hkept : kept l { m with pending := rest, inFlight := some e } = kept l m := by simp [kept, hpending, hflight]
  refine
    { h with
      sources := fun x hx => h.sources x (by simp [hpending, hx])
      bounded := ?_
      order := hkept ▸ h.order
      account := hkept ▸ h.account
      quiet := ?_
      free := fun hnone => ?_
      reach := .inl hreaches }
  · have := h.bounded
    rw [hpending, List.length_cons] at this
    exact (Nat.le_succ _).trans this
  · intro hidle
    have := (h.quiet hidle).1
    rw [hpending] at this
    cases this
  · rw [show m.running = none from hnone] at hrunning
    cases hrunning

theorem Sound.reached (h : Sound S maxPending l m) (hrunning : m.running = some t) (hflight : m.inFlight = some e)
    (hreaches : l.reaches = l.deliveries) : Sound S maxPending { l with reaches := e :: l.reaches } m := by
  refine { h with free := ?_, reach := .inr ⟨e, hflight, by rw [hreaches]⟩ }
  intro hnone
  rw [hnone] at hrunning
  cases hrunning

theorem Sound.delivered (h : Sound S maxPending l m) (hflight : m.inFlight = some e) (hreaches : l.reaches = e :: l.deliveries) :
    Sound S maxPending { l with deliveries := e :: l.deliveries } { m with inFlight := none } := by
  have hkept : kept { l with deliveries := e :: l.deliveries } { m with inFlight := none } = kept l m := by
    simp [kept, hflight]
  exact
    { h with
      order := hkept ▸ h.order
      account := hkept ▸ h.account
      quiet := fun hidle => ⟨(h.quiet hidle).1, rfl⟩
      free := fun _ => ⟨rfl, hreaches⟩
      reach := .inl hreaches }

/-- One step keeps what holds of the shared state and what the thread and the others know. -/
theorem move_sound (hS : S.card ≤ maxPending) (hi : ∀ source, i = .submit source → source ∈ S)
    (h : Sound S maxPending (log out) m) (ht : Asserts t (log out) m pc) : let r := move maxPending i t pc m
    Sound S maxPending (log (r.1 :: out)) r.2.2 ∧ Asserts t (log (r.1 :: out)) r.2.2 r.2.1 ∧
      ∀ u pc', u ≠ t → Asserts u (log out) m pc' → Asserts u (log (r.1 :: out)) r.2.2 pc' := by
  have hothers {u : Thread} (hrunning : m.running = some t) (hu : u ≠ t) : m.running ≠ some u := by
    rw [hrunning]
    exact fun hsome => hu (Option.some.inj hsome).symm
  cases pc with
  | outside =>
    cases t with
    | caller n =>
      cases i with
      | submit source =>
        refine ⟨h.submit hS (hi source rfl), ⟨n, rfl⟩, ?_⟩
        intro u pc' hu hpc
        dsimp only [move, Shared.submit]
        split <;> cases pc' <;> exact hpc
      | resume | settle => exact ⟨h, ⟨n, rfl⟩, fun u pc' _ hpc => hpc⟩
      | go | fail => exact ⟨h, ht, fun u pc' _ hpc => hpc⟩
    | delivery n =>
      refine ⟨h, ?_, fun u pc' _ hpc => hpc⟩
      dsimp only [move]
      by_cases hn : n < m.started
      · rw [if_pos hn]
        exact ht n rfl hn
      · rw [if_neg hn]
        exact ht
  | resuming settling =>
    obtain ⟨n, rfl⟩ := ht
    dsimp only [move]
    by_cases hbusy : m.running.isSome ∨ m.pending = []
    · rw [if_pos hbusy]
      exact ⟨h, resumed_asserts, fun u pc' _ hpc => hpc⟩
    · rw [if_neg hbusy]
      have hnone : m.running = none := by
        cases hr : m.running with
        | none => rfl
        | some u => exact absurd (.inl (by rw [hr]; rfl)) hbusy
      have hfree := h.free hnone
      refine ⟨h.running _ _ _ hfree, ⟨⟨n, rfl⟩, rfl, hfree⟩, ?_⟩
      intro u pc' _ hpc
      exact hpc.free (by simp [hnone]) fun _ _ => .inl
  | starting settling =>
    obtain ⟨⟨n, rfl⟩, hholds⟩ := ht
    dsimp only [move]
    by_cases hfail : i = .fail
    · rw [if_pos hfail]
      exact ⟨h, ⟨⟨n, rfl⟩, hholds⟩, fun u pc' _ hpc => hpc⟩
    · rw [if_neg hfail]
      refine ⟨h.running _ _ _ hholds.2, resumed_asserts, ?_⟩
      intro u pc' hu hpc
      refine hpc.free (hothers hholds.1 hu) ?_
      -- the thread that was started is the one that `_running` is set for now
      rintro k rfl hk
      by_cases hlt : k < m.started
      · exact .inl hlt
      · have : k = m.started := by
          dsimp only at hk
          omega
        exact .inr ⟨by rw [this], hholds.2⟩
  | startFailed settling =>
    obtain ⟨⟨n, rfl⟩, hholds⟩ := ht
    refine ⟨h.running _ _ _ hholds.2, resumed_asserts, ?_⟩
    intro u pc' hu hpc
    exact hpc.free (hothers hholds.1 hu) fun _ _ => .inl
  | waiting idled =>
    obtain ⟨n, rfl⟩ := ht
    dsimp only [move]
    split
    · exact ⟨h, fun k hk => (by cases hk), fun u pc' _ hpc => hpc⟩
    split
    · exact ⟨h, fun k hk => (by cases hk), fun u pc' _ hpc => hpc⟩
    · exact ⟨h, ⟨n, rfl⟩, fun u pc' _ hpc => hpc⟩
  | looping =>
    dsimp only [move]
    split
    · rename_i hpending
      refine ⟨{ h with quiet := fun _ => ⟨hpending, ht.2.1⟩, free := fun _ => ht.2 }, trivial, ?_⟩
      intro u pc' hu hpc
      exact hpc.free (hothers ht.1 hu) fun _ _ => .inl
    · rename_i e rest hpending
      refine ⟨h.take ht hpending, ⟨ht.1, rfl, ht.2.2⟩, ?_⟩
      intro u pc' hu hpc
      exact hpc.free (hothers ht.1 hu) fun _ _ => .inl
  | calling e =>
    obtain ⟨hrunning, hflight, hreaches⟩ := ht
    refine ⟨h.reached hrunning hflight hreaches, ⟨hrunning, hflight, congrArg (e :: ·) hreaches⟩, ?_⟩
    intro u pc' hu hpc
    exact hpc.free (hothers hrunning hu) fun _ _ => .inl
  | sinking e =>
    refine ⟨h, ?_, fun u pc' _ hpc => hpc⟩
    dsimp only [move]
    split <;> exact ht
  | failing e =>
    refine ⟨{ h with }, ht, ?_⟩
    intro u pc' hu hpc
    exact hpc.free (hothers ht.1 hu) fun _ _ => .inl
  | finishing e =>
    obtain ⟨hrunning, hflight, hreaches⟩ := ht
    refine ⟨h.delivered hflight hreaches, ⟨hrunning, rfl, hreaches⟩, ?_⟩
    intro u pc' hu hpc
    exact hpc.free (hothers hrunning hu) fun _ _ => .inl
  | done => exact ⟨h, trivial, fun u pc' _ hpc => hpc⟩

end Step

/-! ## Runs -/

/-- The submissions are those of sources in the set. -/
def Within (S : Finset UUID) (i : Thread × Input) : Prop := ∀ source, i.2 = .submit source → source ∈ S

/-- The assertions about the sink and its threads. -/
abbrev Asserted (S : Finset UUID) (maxPending : Nat) : List Act → State → Prop :=
  Threads.Holds (fun out m => Sound S maxPending (log out) m) fun t pc out m => Asserts t (log out) m pc

section Run

variable {S : Finset UUID} {maxPending : Nat} {h : List SinkEvent} {s : State}

theorem asserted_init : Asserted S maxPending [] State.init := by
  constructor
  · exact
      { sources := nofun
        bounded := Nat.zero_le _
        order := .nil
        below := nofun
        numbers := .nil
        account := .refl _
        superseded := nofun
        coalesced := rfl
        quiet := fun _ => ⟨rfl, rfl⟩
        free := fun _ => ⟨rfl, rfl⟩
        reach := .inl rfl }
  · intro t n _ hlt
    cases hlt

theorem asserted (hS : S.card ≤ maxPending) (hs : Reaches (step maxPending) State.init h s)
    (hwithin : ∀ e ∈ h, Within S e.input) : Asserted S maxPending (Threads.observed h) s := by
  refine Threads.invariant asserted_init ?_ ?_ hs hwithin
  · intro i t s out hi hold
    obtain ⟨hsound, hasserts, _⟩ := move_sound hS hi hold.shared (hold.thread t)
    exact ⟨hsound, hasserts⟩
  · intro i t u s out hi hu hold
    exact (move_sound hS hi hold.shared (hold.thread t)).2.2 u _ hu (hold.thread u)

/-- A delivery thread runs from its start to its end. -/
def State.Runs (s : State) (n : Nat) : Prop := n < s.shared.started ∧ s.pc (.delivery n) ≠ .done

theorem Asserted.running (hold : Asserted S maxPending out s) (hn : s.Runs n) : s.shared.running = some (.delivery n) := by
  have ht := hold.thread (.delivery n)
  obtain ⟨hstarted, hdone⟩ := hn
  cases hpc : s.pc (.delivery n) <;> rw [hpc] at ht
  case outside => exact (ht n rfl hstarted).1
  case done => exact absurd hpc hdone
  case resuming | waiting =>
    obtain ⟨k, hk⟩ := ht
    cases hk
  case starting | startFailed => exact ht.2.1
  all_goals exact ht.1

/-! ## Settling -/

/-- The events since the thread called `settle`. -/
def since (t : Thread) (h : List SinkEvent) : List SinkEvent :=
  h.takeWhile fun e => ¬(e.input.1 = t ∧ e.output = .settling)

/-- Nothing is pending or in flight. -/
def Quiet (s : State) : Prop := s.shared.pending = [] ∧ s.shared.inFlight = none

variable {t : Thread}

end Run

/-- What the sink promises of a run: every submitted event was delivered, is in flight or pending, or was removed for a later
one of its source; the sink is called in the order of submission; the events add up; one delivery thread runs at most; and
`settle` returns True only if nothing was pending or in flight at some moment of the call. -/
structure Kept (h : List SinkEvent) (s : State) : Prop where
  once : (submits (Threads.observed h)).Nodup ∧ (submits (Threads.observed h)).Perm
    (s.shared.pending.reverse ++ s.shared.inFlight.toList ++ deliveries (Threads.observed h) ++ removals (Threads.observed h))
  removed : ∀ e ∈ removals (Threads.observed h), ∃ later ∈ submits (Threads.observed h),
    later.source = e.source ∧ e.number < later.number
  called : (deliveries (Threads.observed h)).Sublist (reaches (Threads.observed h))
  order : (reaches (Threads.observed h)).Pairwise fun later earlier => earlier.number < later.number
  count : (submits (Threads.observed h)).length =
    (deliveries (Threads.observed h)).length + s.shared.inFlight.toList.length + s.shared.pending.length + s.shared.coalesced
  single : ∀ n k, s.Runs n → s.Runs k → n = k
  settled : ∀ later e earlier, h = later ++ e :: earlier → e.output = .settled true →
    Quiet e.before ∨ ∃ x ∈ since e.input.1 earlier, Quiet x.after

end Sentinel.Uvc.HealthSink
