import Sentinel.Uvc.Delivery

/-!
# Proofs: delivery of health events

A thread holds nothing, the transition lock or the delivery lock, and its program point says how far the event it works
on has come. The transition lock orders the appends, the delivery lock the calls of `notify`, so what `notify` was called
with is always a prefix of what was queued.
-/

namespace Sentinel.Uvc.Delivery

/-- What a thread holds. -/
inductive Held
  | nothing
  /-- The transition lock, with the event of a transition that is not queued yet, and how often the thread counts as
  emitting. -/
  | lock (unqueued : Option HealthEvent) (emitting : Nat)
  /-- The delivery lock, with the event that was taken from the outbox, and the one that `notify` runs with. -/
  | delivery (taken notifying : Option HealthEvent)

/-- What a thread at a program point holds. -/
def Pc.held : Pc → Held
  | entering _ _ e => .lock (some e) 0
  | emitting _ _ e | appending _ _ e => .lock (some e) 1
  | leaving _ _ => .lock none 1
  | unlocking _ _ => .lock none 0
  | taking _ | releasing _ _ => .delivery none none
  | calling _ e => .delivery (some e) none
  | notifying _ e => .delivery none (some e)
  | _ => .nothing

/-- What a step of a thread can do. -/
inductive Moved (t : Thread) (m : Shared) : Held → Act → Held → Shared → Prop
  | rests (k : Held) (running pending idle : Bool) (started : Nat) (hidle : idle = true → m.idle = true) :
      Moved t m k .quiet k { m with running, pending, idle, started }
  | idles (k : Held) (running : Bool) (hemitting : m.emitting = 0) (hempty : m.outbox = []) :
      Moved t m k .quiet k { m with running, idle := true }
  | settles : Moved t m .nothing (.settled m.delivered) .nothing m
  | locks (free : m.lock = none) : Moved t m .nothing .quiet (.lock none 0) { m with lock := some t }
  | transitions (e : HealthEvent) (free : m.lock = none) :
      Moved t m .nothing (.transitioned e) (.lock (some e) 0)
        { m with lock := some t, state := e.state, reason := e.reason }
  | enters (e : HealthEvent) :
      Moved t m (.lock (some e) 0) .quiet (.lock (some e) 1) { m with emitting := m.emitting + 1, idle := false }
  | raises (e : HealthEvent) : Moved t m (.lock (some e) 1) .quiet (.lock none 1) m
  | appends (e : HealthEvent) :
      Moved t m (.lock (some e) 1) (.queued e) (.lock none 1) { m with outbox := m.outbox ++ [e] }
  | leaves (idle : Bool) (hidle : idle = true → m.idle = true ∨ m.outbox = []) :
      Moved t m (.lock none 1) .quiet (.lock none 0) { m with emitting := m.emitting - 1, idle }
  | unlocks : Moved t m (.lock none 0) .quiet .nothing { m with lock := none }
  | acquires (free : m.delivery = none) :
      Moved t m .nothing .quiet (.delivery none none) { m with delivery := some t }
  | takes (e : HealthEvent) (rest : List HealthEvent) (hout : m.outbox = e :: rest) :
      Moved t m (.delivery none none) .quiet (.delivery (some e) none) { m with outbox := rest }
  | calls (e : HealthEvent) : Moved t m (.delivery (some e) none) (.calls e) (.delivery none (some e)) m
  | completes (e : HealthEvent) : Moved t m (.delivery none (some e)) (.completed e) (.delivery none none) m
  | releases : Moved t m (.delivery none none) .quiet .nothing { m with delivery := none }

variable {t u : Thread} {m m' : Shared} {k k' : Held} {o : Act} {out : List Act}

theorem Moved.same (k : Held) : Moved t m k .quiet k m := .rests k _ _ _ _ id

theorem Moved.marks (k : Held) : Moved t m k .quiet k m.markIdleIfDrained := by
  unfold Shared.markIdleIfDrained
  cases hidle : m.idleLocked with
  | false =>
    rw [Bool.or_false]
    exact .same k
  | true =>
    have hdone : (m.running = false ∧ m.emitting = 0) ∧ m.outbox = [] := by simpa [Shared.idleLocked] using hidle
    rw [Bool.or_true]
    exact .idles k _ hdone.1.2 hdone.2

/-- A block that finds the outbox empty and sets the flag unless a transition emits. -/
theorem Moved.empties (k : Held) (running : Bool) (hempty : m.outbox = []) :
    Moved t m k .quiet k { m with running, idle := m.idle || m.emitting == 0 } := by
  cases hemitting : m.emitting == 0 with
  | false =>
    rw [Bool.or_false]
    exact .rests k _ _ _ _ id
  | true =>
    rw [Bool.or_true]
    exact .idles k _ (by simpa using hemitting) hempty

theorem Call.held_begin (c : Call) : c.begin.held = .nothing := by
  cases c <;> rfl

theorem held_handed (settling started : Bool) : (handed settling started).held = .nothing := by
  cases settling <;> cases started <;> rfl

theorem held_marked (d : Drainer) (how : Outcome) : (marked d how).held = .nothing := by
  cases d <;> cases how <;> rfl

theorem moved_locking (how : Outcome) (c : Call) :
    Moved t m .nothing (move (.go how) t (.locking c) m).1 (move (.go how) t (.locking c) m).2.1.held
      (move (.go how) t (.locking c) m).2.2 := by
  simp only [move]
  split
  · split_ifs
    · exact .same _
    · exact .same _
  · rename_i free
    split
    · exact .locks free
    · split_ifs
      · exact .locks free
      · exact .transitions _ free

theorem moved (i : Input) (t : Thread) (pc : Pc) (m : Shared) :
    Moved t m pc.held (move i t pc m).1 (move i t pc m).2.1.held (move i t pc m).2.2 := by
  cases i with
  | call c =>
    cases pc with
    | outside =>
      cases t with
      | caller n =>
        simp only [move, Call.held_begin]
        exact .same _
      | handoff n => exact .same _
    | _ => exact .same _
  | go how =>
    cases pc with
    | outside => exact .same _
    | locking c => exact moved_locking how c
    | entering c deliver e => exact .enters e
    | emitting c deliver e =>
      simp only [move]
      split_ifs
      · exact .same _
      · exact .raises e
    | appending c deliver e => exact .appends e
    | leaving c deliver =>
      refine .leaves _ fun h => ?_
      simpa [Shared.idleLocked, and_assoc] using (Bool.or_eq_true_iff.mp h).imp_right fun h => by
        simpa [Shared.idleLocked] using (Bool.and_eq_true_iff.mp h).2
    | unlocking c deliver =>
      have hheld : (move (.go how) t (.unlocking c deliver) m).2.1.held = .nothing := by
        simp only [move]
        split_ifs <;> rfl
      rw [hheld]
      exact .unlocks
    | handing settling =>
      simp only [move]
      split_ifs with hrunning hempty
      · rw [held_handed]
        exact .rests _ _ _ _ _ id
      · rw [held_handed]
        exact .empties _ _ (List.isEmpty_iff.mp hempty)
      · exact .rests _ _ _ _ _ (absurd · Bool.false_ne_true)
    | starting settling =>
      simp only [move]
      split_ifs
      · rw [held_handed]
        exact .rests _ _ _ _ _ id
      · exact .same _
    | startFailed settling =>
      simp only [move, held_handed]
      exact .rests _ _ _ _ _ id
    | draining d =>
      simp only [move]
      split_ifs <;> exact .same _
    | acquiring d =>
      simp only [move]
      split
      · split_ifs <;> exact .same _
      · rename_i free
        exact .acquires free
    | taking d =>
      simp only [move]
      split
      · exact .same _
      · rename_i e rest hout
        exact .takes e rest hout
    | calling d e => exact .calls e
    | notifying d e =>
      simp only [move]
      split_ifs <;> exact .completes e
    | releasing d h =>
      have hheld : (move (.go how) t (.releasing d h) m).2.1.held = .nothing := by
        cases d <;> cases h <;> rfl
      rw [hheld]
      exact .releases
    | marking d h =>
      simp only [move, held_marked]
      exact .marks _
    | looping =>
      cases t with
      | caller n => exact .same _
      | handoff n =>
        simp only [move]
        split_ifs <;> exact .same _
    | finishing =>
      simp only [move]
      split_ifs with hdone
      · exact .empties _ _ (List.isEmpty_iff.mp (Bool.and_eq_true_iff.mp hdone).2)
      · exact .rests _ _ _ _ _ id
    | resuming =>
      simp only [move]
      split_ifs <;> exact .same _
    | checking =>
      simp only [move]
      split_ifs <;> exact .same _
    | polling =>
      simp only [move]
      split_ifs <;> exact .same _
    | waiting => exact .same _
    | concluding => exact .settles

/-! ## What was observed -/

section Observed

variable (o : Act) (out : List Act)

theorem transitions_cons :
    transitions (o :: out) = transitions out ++ (match o with | .transitioned e => [e] | _ => []) := by
  cases o <;> simp [transitions]

theorem queued_cons : queued (o :: out) = queued out ++ (match o with | .queued e => [e] | _ => []) := by
  cases o <;> simp [queued]

theorem called_cons : called (o :: out) = called out ++ (match o with | .calls e => [e] | _ => []) := by
  cases o <;> simp [called]

theorem completed_cons : completed (o :: out) = completed out ++ (match o with | .completed e => [e] | _ => []) := by
  cases o <;> simp [completed]

end Observed

/-! ## The invariant -/

/-- What holds of the shared memory. -/
structure Sound (out : List Act) (m : Shared) : Prop where
  ordered : (queued out).Sublist (transitions out)
  unlocked : m.lock = none → m.emitting = 0
  undelivered : m.delivery = none → called out = completed out ∧ queued out = called out ++ m.outbox

/-- What a thread may rely on, by what it holds. -/
def Holding (t : Thread) (k : Held) (out : List Act) (m : Shared) : Prop :=
  match k with
  | .nothing => m.delivery ≠ some t
  | .lock unqueued emitting =>
    m.delivery ≠ some t ∧ m.lock = some t ∧ m.emitting = emitting ∧
      (queued out ++ unqueued.toList).Sublist (transitions out)
  | .delivery taken notifying =>
    m.delivery = some t ∧ called out = completed out ++ notifying.toList ∧
      queued out = called out ++ taken.toList ++ m.outbox

theorem Sound.moved (hm : Sound out m) (h : Moved t m k o k' m') (hk : Holding t k out m) : Sound (o :: out) m' := by
  obtain ⟨hordered, hunlocked, hundelivered⟩ := hm
  cases h with
  | _ =>
    constructor <;> simp_all [Holding, queued_cons, called_cons, completed_cons, transitions_cons]

theorem Holding.moved (hk : Holding t k out m) (hm : Sound out m) (h : Moved t m k o k' m') :
    Holding t k' (o :: out) m' := by
  have hfree := hm.undelivered
  have hzero := hm.unlocked
  have hordered := hm.ordered
  cases h with
  | rests k | idles k => cases k <;> simpa [Holding, queued_cons, called_cons, completed_cons, transitions_cons] using hk
  | _ => simp_all [Holding, queued_cons, called_cons, completed_cons, transitions_cons]

/-- A step keeps what the other threads rely on: a thread that holds a lock is not disturbed. -/
theorem Holding.other {j : Held} (hj : Holding u j out m) (hne : u ≠ t) (h : Moved t m k o k' m')
    (hk : Holding t k out m) : Holding u j (o :: out) m' := by
  cases j with
  | nothing => cases h <;> simp_all [Holding, hne.symm]
  | lock unqueued emitting => cases h <;> simp_all [Holding, queued_cons, transitions_cons, hne.symm]
  | delivery taken notifying => cases h <;> simp_all [Holding, queued_cons, called_cons, completed_cons]

/-- A step keeps that the flag means that everything queued was delivered; where it sets the flag, it is enough that
an empty outbox means that. -/
theorem Moved.idle (h : Moved t m k o k' m') (hk : Holding t k out m)
    (hold : m.idle = true → m.emitting = 0 ∧ completed out = queued out)
    (hnew : m.idle = false → m'.idle = true → m.outbox = [] → completed out = queued out) (hidle : m'.idle = true) :
    m'.emitting = 0 ∧ completed (o :: out) = queued (o :: out) := by
  simp only [completed_cons, queued_cons]
  cases h with
  | rests k running pending idle started hkept => simpa using hold (hkept hidle)
  | idles k running hemitting hempty =>
    cases hbefore : m.idle with
    | false => simpa [hemitting] using hnew hbefore rfl hempty
    | true => simpa using hold hbefore
  | enters e => cases hidle
  | raises e | appends e => simp [(hold hidle).1, Holding] at hk
  | leaves idle hset =>
    have hemitting : m.emitting = 1 := hk.2.2.1
    cases hbefore : m.idle with
    | false =>
      have hempty : m.outbox = [] := by simpa [hbefore] using hset hidle
      simpa [hemitting] using hnew hbefore hidle hempty
    | true => simp [(hold hbefore).1] at hemitting
  | completes e =>
    -- the event of the call is queued and was not completed before
    obtain ⟨-, hcalled, hqueued⟩ := hk
    have hlen := congrArg List.length ((hold hidle).2.trans hqueued)
    simp [hcalled] at hlen
  | _ => simpa using hold hidle

theorem Moved.settled (h : Moved t m k o k' m') (ho : o = .settled true) : m.idle = true := by
  cases h with
  | settles =>
    have hdelivered : (m.idle = true ∧ m.outbox = []) ∧ m.emitting = 0 := by simpa [Shared.delivered] using ho
    exact hdelivered.1.1
  | _ => cases ho

/-! ## Runs -/

section Runs

variable {h later earlier : List DeliveryEvent} {s : State} {e : DeliveryEvent}

/-- All assertions hold. -/
abbrev Asserted (out : List Act) (s : State) : Prop := Threads.Holds Sound (fun t pc => Holding t pc.held) out s

theorem asserted_init : Asserted [] State.init := by
  refine ⟨⟨List.Sublist.slnil, fun _ => rfl, fun _ => ⟨rfl, rfl⟩⟩, fun t => ?_⟩
  cases t <;> exact nofun

theorem asserted (hs : Reaches step State.init h s) : Asserted (Threads.observed h) s := by
  refine Threads.invariant asserted_init ?_ ?_ hs (C := fun _ => True) (fun _ _ => trivial)
  · intro i t s out _ hold
    exact ⟨hold.shared.moved (moved i t _ _) (hold.thread t), (hold.thread t).moved hold.shared (moved i t _ _)⟩
  · intro i t u s out _ hne hold
    exact (hold.thread u).other hne (moved i t _ _) (hold.thread t)

variable {out : List Act} {a b : Option HealthEvent}

theorem Asserted.owner (hold : Asserted out s) {t : Thread} (ht : s.shared.delivery = some t) :
    ∃ taken notifying, (s.pc t).held = .delivery taken notifying := by
  have ht' := hold.thread t
  cases hk : (s.pc t).held with
  | nothing =>
    simp only [hk, Holding] at ht'
    exact absurd ht ht'
  | lock unqueued emitting =>
    simp only [hk, Holding] at ht'
    exact absurd ht ht'.1
  | delivery taken notifying => exact ⟨taken, notifying, rfl⟩

theorem Pc.taken_of_held {pc : Pc} (h : pc.held = .delivery a b) : pc.taken = a := by
  cases pc <;> simp_all [Pc.held, Pc.taken]

theorem Pc.inFlight_of_held {pc : Pc} (h : pc.held = .delivery a b) : pc.inFlight = (a <|> b) := by
  cases pc <;> simp_all [Pc.held, Pc.inFlight] <;> rcases h with ⟨rfl, rfl⟩ <;> rfl

/-- What was queued was passed on, in this order, is about to be, or is still in the outbox. -/
theorem Asserted.account (hold : Asserted out s) : queued out = called out ++ s.taken.toList ++ s.shared.outbox := by
  unfold State.taken
  cases hd : s.shared.delivery with
  | none => simpa using (hold.shared.undelivered hd).2
  | some t =>
    obtain ⟨a, b, hk⟩ := hold.owner hd
    have ht := hold.thread t
    simp only [hk, Holding] at ht
    simpa [Pc.taken_of_held hk] using ht.2.2

/-- With nothing in flight and an empty outbox, everything queued was delivered. -/
theorem Asserted.completed_eq (hold : Asserted out s) (hempty : s.shared.outbox = []) (hflight : s.inFlight = none) :
    completed out = queued out := by
  cases hd : s.shared.delivery with
  | none =>
    obtain ⟨hcalled, hqueued⟩ := hold.shared.undelivered hd
    rw [hqueued, hempty, List.append_nil, hcalled]
  | some t =>
    obtain ⟨a, b, hk⟩ := hold.owner hd
    have ht := hold.thread t
    simp only [hk, Holding] at ht
    have hnone : (a <|> b) = none := by simpa [State.inFlight, hd, Pc.inFlight_of_held hk] using hflight
    obtain ⟨rfl, rfl⟩ : a = none ∧ b = none := by
      cases a <;> cases b <;> simp_all
    simpa [hempty, ht.2.1] using ht.2.2.symm

/-- The flag is set only when everything queued was delivered, if no thread sets it while an event is in flight. -/
theorem idle_delivered (hs : Reaches step State.init h s)
    (hclear : ∀ e ∈ h, idles e = true → e.before.inFlight = none) (hidle : s.shared.idle = true) :
    s.shared.emitting = 0 ∧ completed (Threads.observed h) = queued (Threads.observed h) := by
  induction hs with
  | start => exact ⟨rfl, rfl⟩
  | @next h s hs i ih =>
    have hold := asserted hs
    refine (moved i.2 i.1 (s.pc i.1) s.shared).idle (hold.thread i.1)
      (ih fun e he => hclear e (List.mem_cons_of_mem _ he)) ?_ hidle
    intro hbefore hafter hempty
    have hidles : idles (Event.of step s i) = true := Bool.and_eq_true_iff.mpr ⟨by simp [Event.of, hbefore], hafter⟩
    exact hold.completed_eq hempty (hclear _ List.mem_cons_self hidles)

/-- In every run: the events are queued in the order of the transitions and passed to `notify` in this order, each once.
If in the run no thread sets `_handoff_idle` while another is between taking an event and the end of its call of
`notify`, then whenever `settle_delivery` returns True, the call of `notify` has ended for every event queued until
then. -/
theorem settled_delivered (hs : Reaches step State.init h s) :
    (queued (Threads.observed h)).Sublist (transitions (Threads.observed h)) ∧
      queued (Threads.observed h) = called (Threads.observed h) ++ s.taken.toList ++ s.shared.outbox ∧
      ((∀ e ∈ h, idles e = true → e.before.inFlight = none) →
        ∀ later e earlier, h = later ++ e :: earlier → e.output = .settled true →
          completed (Threads.observed earlier) = queued (Threads.observed earlier)) := by
  have hold := asserted hs
  refine ⟨hold.shared.ordered, hold.account, fun hclear later e earlier heq hsettled => ?_⟩
  subst heq
  obtain ⟨hearlier, he⟩ := hs.event
  have hmoved := moved e.input.2 e.input.1 (e.before.pc e.input.1) e.before.shared
  have hidle : e.before.shared.idle = true := hmoved.settled (by rw [he] at hsettled; exact hsettled)
  exact (idle_delivered hearlier (fun d hd => hclear d (by simp [hd])) hidle).2

end Runs

/-- A thread makes a call and takes a number of steps in which nothing fails. -/
def calling (n : Nat) (c : Call) (steps : Nat) : List (Thread × Input) :=
  (.caller n, .call c) :: List.replicate steps (.caller n, .go .returns)

/-- The worker raises and delivers, the watchdog lowers and its hand-off thread cannot start, and the stopping thread,
which cannot start one either, delivers itself. -/
def settling : List (Thread × Input) :=
  calling 0 .captureReady 15 ++ calling 1 (.frameStalled true false false) 7 ++
    [(.caller 1, .go .fails), (.caller 1, .go .returns)] ++
    calling 2 .settleDelivery 3 ++ [(.caller 2, .go .fails)] ++ List.replicate 12 (.caller 2, .go .returns)

theorem settled_delivered_retried :
    queued (Threads.observed ((perform step State.init settling).1.drop 1)) =
        [⟨.online, .videoCaptureReady⟩, ⟨.degraded, .videoFrameStalled⟩] ∧
      completed (Threads.observed ((perform step State.init settling).1.drop 1)) =
        queued (Threads.observed ((perform step State.init settling).1.drop 1)) :=
  ⟨by decide +kernel,
    (settled_delivered (.perform _ _ settling)).2.2 (by decide +kernel) [] _ _ rfl rfl⟩

/-- The worker took its event from the outbox and has not called `notify` when the stopping thread finds the outbox empty
and no hand-off running: it sets `_handoff_idle` itself and returns True. -/
theorem settled_before_notify :
    ∃ (e : DeliveryEvent) (earlier : List DeliveryEvent) (s : State),
      Reaches step State.init (e :: earlier) s ∧ e.output = .settled true ∧
        queued (Threads.observed earlier) = [⟨.offline, .deviceDisconnected⟩] ∧
        called (Threads.observed earlier) = [] :=
  ⟨_, _, _,
    .perform step State.init (calling 0 (.transition .offline .deviceDisconnected) 9 ++ calling 1 .settleDelivery 6),
    by decide +kernel, by decide +kernel, by decide +kernel⟩

end Sentinel.Uvc.Delivery
