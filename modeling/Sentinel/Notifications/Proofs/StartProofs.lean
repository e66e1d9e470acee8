import Mathlib.Data.List.GetD
import Sentinel.Lib.Progress
import Sentinel.Notifications.Proofs.HandoffProofs

/-!
# Starting the delivery thread

When every start succeeds, each event that is reported as pending is sent: the completion at the head of the line is always
a few steps of the delivery thread or of `poll` away, and the line moves by one with each completion that is drained.

When the first start fails, `submit` has stored the thread before it raised. It is never started again, and what is queued
from then on stays in the queue.
-/

namespace Sentinel.Notifications

variable {callback : Bool} {first : List Action}

namespace Handoff

variable {s : Handoff} {id : EventId} {a : Action}

/-! ## What holds while the service is open -/

/-- The result of an event in flight. -/
def outcome (d : Dict EventId InFlight) (id : EventId) : Option DeliveryResult := (d.get? id).bind InFlight.result

/-- The thread runs and the service is open. -/
structure Live (s : Handoff) : Prop where
  inv : Inv s
  opened : s.service.closed = false
  configured : s.service.configured = true
  thread : s.thread ≠ .exited
  drained : ∀ id result, outcome s.service.pending id = some result → (id, result) ∈ s.drained

theorem Live.init (capacity : Nat) (rows : EventId → Option DeliveryResult) : Live (init capacity true rows) :=
  ⟨Inv.init .., rfl, rfl, (fun h => nomatch h), fun _ _ he => nomatch he⟩

variable {e : InFlight} {number : Option Nat} {service : Service} {id' : EventId} {out : DeliveryResult × Bool}
  {output : Option (DeliveryResult × Bool)} {pending : Dict EventId InFlight} {worker : DeliveryWorker} {s' : Handoff}
  {result : DeliveryResult} {p : Polling}

theorem outcome_entered (hentered : service.Entered id' number out pending worker) :
    outcome pending id = outcome service.pending id := by
  unfold outcome
  cases hentered with
  | same _ => rfl
  | joined hentry =>
    rw [Dict.get?_set]
    split_ifs with hid
    · rw [hid, hentry]
      rfl
    · rfl
  | admitted hnone _ _ =>
    rw [Dict.get?_set]
    split_ifs with hid
    · rw [hid, hnone]
      rfl
    · rfl

theorem outcome_takeResult (service : Service) (item : EventId × DeliveryResult) (id : EventId) :
    outcome (service.takeResult item).pending id =
      if id = item.1 then (service.pending.get? id).map fun _ => item.2 else outcome service.pending id := by
  unfold outcome Service.takeResult
  dsimp only
  rw [Dict.get?_modify]
  split_ifs with hid
  · rw [hid]
    cases service.pending.get? item.1 <;> rfl
  · rfl

theorem outcome_settled (hsettled : s.service.Settled p service) (he : outcome service.pending id = some result) :
    outcome s.service.pending id = some result := by
  unfold outcome at he ⊢
  rw [hsettled.get] at he
  obtain ⟨e, he, hresult⟩ := Option.bind_eq_some_iff.mp he
  obtain ⟨e₀, he₀, hsettle⟩ := Option.bind_eq_some_iff.mp he
  rw [he₀]
  unfold Service.settle at hsettle
  split_ifs at hsettle <;> cases hsettle <;> exact hresult

theorem Live.move (hclose : a ≠ .close) (h : Live s) (hmove : Move s a output s') : Live s' := by
  obtain ⟨-, hconfigured, hclosed⟩ := hmove.kept
  refine ⟨h.inv.move hmove, (hclosed hclose).trans h.opened, hconfigured.trans h.configured, ?_, fun id result hresult => ?_⟩
  · cases hmove with
    | thread hmove =>
      have hstopped : s.service.worker.stopped = false := h.inv.stopped.trans h.opened
      cases hmove with
      | rests _ | publishes _ _ => exact h.thread
      | turns _ _ => simp [hstopped]
      | takes _ _ _ _ | misses _ _ _ => simp
    | _ => exact h.thread
  · cases hmove with
    | submits _ _ hentered hsame _ =>
      dsimp only at hresult
      rw [hsame.pending, outcome_entered hentered] at hresult
      exact h.drained id result hresult
    | flushes _ hsame =>
      dsimp only at hresult
      rw [hsame.pending] at hresult
      exact h.drained id result hresult
    | @drains _ item _ _ _ =>
      dsimp only at hresult
      rw [outcome_takeResult] at hresult
      split_ifs at hresult with hid
      · obtain ⟨e, -, rfl⟩ := Option.map_eq_some_iff.mp hresult
        simp [hid]
      · exact List.mem_append_left _ (h.drained id result hresult)
    | ends _ _ hsettled => exact h.drained id result (outcome_settled hsettled hresult)
    | thread hmove => cases hmove <;> exact h.drained id result hresult
    | _ => exact h.drained id result hresult

/-! ## The line of deliveries -/

/-- How far away the next completion is. -/
def stage (s : Handoff) : Nat :=
  if s.service.worker.results ≠ [] then if s.polling.isSome then 0 else 1
  else if s.service.worker.sending.isSome then 2
  else if s.thread = .waiting then 3
  else 4

theorem stage_le (s : Handoff) : s.stage ≤ 4 := by
  unfold stage
  split_ifs <;> omega

def distance (id : EventId) (s : Handoff) : Nat := 5 * s.outstanding.idxOf id + s.stage

/-- The actions that bring the next completion closer. -/
def brings (r : Nat) : Action → Prop
  | .drain => r % 5 = 0
  | .poll _ => r % 5 = 1
  | .thread _ => 1 < r % 5
  | _ => False

theorem distance_mod (id : EventId) (s : Handoff) : distance id s % 5 = s.stage := by
  have hle := s.stage_le
  unfold distance
  omega

/-- An event moves up the line, or its completion is drained. -/
structure Advances (id : EventId) (a : Action) (s s' : Handoff) : Prop where
  mem : id ∈ s'.outstanding
  le : distance id s' ≤ distance id s
  lt : brings (distance id s) a → distance id s' < distance id s

theorem Advances.of_append {l : List EventId} (hid : id ∈ s.outstanding) (hout : s'.outstanding = s.outstanding ++ l)
    (hstage : s'.stage ≤ s.stage) (hlt : brings s.stage a → s'.stage < s.stage) : Advances id a s s' := by
  have hidx : s'.outstanding.idxOf id = s.outstanding.idxOf id := by
    rw [hout, List.idxOf_append_of_mem hid]
  refine ⟨hout ▸ List.mem_append_left _ hid, ?_, fun hbrings => ?_⟩
  · unfold distance
    omega
  · have hbrings' : brings s.stage a := by
      have hmod := distance_mod id s
      have hle := s.stage_le
      cases a <;> simp only [brings] at hbrings ⊢ <;> omega
    have hless := hlt hbrings'
    unfold distance
    omega

theorem worker_entered (h : Inv s) (hentered : s.service.Entered id' number out pending worker) :
    worker.results = s.service.worker.results ∧ worker.sending = s.service.worker.sending ∧
      ∃ l, worker.work = s.service.worker.work ++ l := by
  cases hentered with
  | same _ | joined _ => exact ⟨rfl, rfl, [], by simp⟩
  | admitted _ hsize hopen =>
    rw [h.submit_eq hopen hsize]
    exact ⟨rfl, rfl, _, rfl⟩

/-- An action that changes nothing was not waited for. -/
theorem Advances.refl (hid : id ∈ s.outstanding) (ha : ¬brings s.stage a) : Advances id a s s :=
  .of_append (l := []) hid (by simp) le_rfl fun hbrings => absurd hbrings ha

theorem not_brings_of_event {r : Nat} (ha : a.event = some id') : ¬brings r a := by
  cases a with
  | record _ _ _ _ | daily _ _ _ _ _ => exact id
  | _ => cases ha

theorem drains_advances {item : EventId × DeliveryResult} {rest : List (EventId × DeliveryResult)}
    (hid : id ∈ s.outstanding) (hresults : s.service.worker.results = item :: rest) (hhead : id ≠ item.1)
    (hout' : s'.outstanding = rest.map Prod.fst ++
      (s.service.worker.sending.toList ++ s.service.worker.work.map Prod.fst)) : Advances id .drain s s' := by
  have hout := outstanding_cons hresults
  have hlt : distance id s' < distance id s := by
    have hle := s'.stage_le
    have hne : (item.1 == id) = false := beq_false_of_ne (Ne.symm hhead)
    have hidx : s.outstanding.idxOf id = s'.outstanding.idxOf id + 1 := by
      rw [hout, hout', List.idxOf_cons, hne, cond_false]
    unfold distance
    omega
  refine ⟨?_, hlt.le, fun _ => hlt⟩
  rw [hout, ← hout'] at hid
  exact (List.mem_cons.mp hid).resolve_left hhead

theorem thread_advances {answer : Option DeliveryResult} (h : Live s) (hid : id ∈ s.outstanding) (hmove : ThreadMove s s') :
    Advances id (.thread answer) s s' := by
  have hstarted := h.inv.started (List.ne_nil_of_mem hid)
  have hstopped : s.service.worker.stopped = false := h.inv.stopped.trans h.opened
  have hout : s'.outstanding = s.outstanding ++ [] := by rw [hmove.outstanding_eq, List.append_nil]
  suffices hstage : s'.stage ≤ s.stage ∧ (1 < s.stage → s'.stage < s.stage) by
    refine .of_append hid hout hstage.1 fun hbrings => hstage.2 ?_
    have hle := s.stage_le
    simp only [brings] at hbrings
    omega
  cases hmove with
  | rests hrests => exact absurd (hrests hstarted) h.thread
  | publishes _ hsending =>
    simp only [stage, hsending, ne_eq, List.append_eq_nil_iff, List.cons_ne_nil, and_false, not_false_eq_true, if_true,
      Option.isSome_some]
    split_ifs <;> omega
  | turns hsending hthread =>
    simp only [stage, hsending, hthread, hstopped]
    split_ifs <;> simp_all
  | takes _ hsending hthread _ =>
    simp only [stage, hsending, hthread]
    split_ifs <;> simp_all
  | misses hsending hthread hwork =>
    have hresults : s.service.worker.results ≠ [] := by
      intro hnil
      simp [outstanding, hnil, hsending, hwork] at hid
    simp only [stage, hresults, ne_eq, not_false_eq_true, if_true]
    split_ifs <;> omega

/-- The event has its result. -/
def Waits (id : EventId) (s : Handoff) : Prop := (outcome s.service.pending id).isSome = true

theorem advances (h : Live s) (hid : id ∈ s.outstanding) (hmove : Move s a output s') : Waits id s' ∨ Advances id a s s' := by
  cases hmove with
  | busy ha => exact .inr (.refl hid (not_brings_of_event ha))
  | submits ha _ hentered hsame _ =>
    obtain ⟨hresults, hsending, l, hwork⟩ := worker_entered h.inv hentered
    refine .inr (.of_append (l := l.map Prod.fst) hid ?_ (le_of_eq ?_) fun hbrings => absurd hbrings (not_brings_of_event ha))
    · simp [outstanding, hsame.worker, hresults, hsending, hwork]
    · simp [stage, hsame.worker, hresults, hsending]
  | polls hpolling =>
    refine .inr (.refl hid fun hbrings => ?_)
    simp only [brings, stage, hpolling] at hbrings
    split_ifs at hbrings <;> simp_all
  | flushes hpolling hsame =>
    refine .inr (.of_append (l := []) hid (by simp [outstanding, hsame.worker]) ?_ fun hbrings => ?_)
    · simp only [stage, hpolling, hsame.worker]
      split_ifs <;> simp_all
    · simp only [brings, stage, hpolling, hsame.worker] at hbrings ⊢
      split_ifs at hbrings ⊢ <;> simp_all
  | rests hpolling =>
    refine .inr (.refl hid fun hbrings => ?_)
    simp only [brings, stage, hpolling] at hbrings
    split_ifs at hbrings
    simp_all
  | @drains _ item rest hpolling hresults =>
    by_cases hhead : id = item.1
    · obtain ⟨e, he, -⟩ := (h.inv.entry id).mp hid
      left
      unfold Waits
      dsimp only
      rw [outcome_takeResult, if_pos hhead]
      dsimp only
      rw [he]
      rfl
    · exact .inr (drains_advances hid hresults hhead rfl)
  | ends hpolling hresults hsettled =>
    refine .inr (.of_append (l := []) hid ?_ (le_of_eq ?_) fun hbrings => ?_)
    · simp [outstanding, hsettled.worker]
    · simp [stage, hsettled.worker, hresults]
    · simp only [brings, stage, hresults] at hbrings
      split_ifs at hbrings
      simp_all
  | waits => exact .inr (.refl hid False.elim)
  | closes => exact .inr (.of_append (l := []) hid (by simp [outstanding, Service.close]) le_rfl False.elim)
  | thread hmove => exact .inr (thread_advances h hid hmove)

/-! ## The end of a delivery -/

/-- The completions that the poll can still drain, or a new poll. -/
def remaining (s : Handoff) : Nat := if s.polling.isSome then s.outstanding.length + 1 else s.service.capacity + 2

/-- The actions that bring the end of the next poll closer. -/
def ends (capacity r : Nat) : Action → Prop
  | .drain => r ≠ capacity + 2
  | .poll _ => r = capacity + 2
  | _ => False

/-- A step leaves the completion waiting, and no farther from the head of the line. -/
structure Ends (id : EventId) (a : Action) (s s' : Handoff) : Prop where
  waits : Waits id s'
  le : remaining s' ≤ remaining s
  lt : ends s.service.capacity (remaining s) a → remaining s' < remaining s

theorem not_ends_of_event {capacity r : Nat} (ha : a.event = some id') : ¬ends capacity r a := by
  cases a with
  | record _ _ _ _ | daily _ _ _ _ _ => exact id
  | _ => cases ha

theorem Waits.not_mem (hwaits : Waits id s) (h : Inv s) : id ∉ s.outstanding := by
  intro hmem
  obtain ⟨e, he, hnone⟩ := (h.entry id).mp hmem
  simp [Waits, outcome, he, hnone] at hwaits

/-- One step of the end of a delivery: it waits for the end of the poll, or that end is reached. -/
theorem ends_step (hclose : a ≠ .close) (h : Live s) (hwaits : Waits id s)
    (hreturns : ∀ p, s.polling = some p → p.Returns) (hmove : Move s a output s') :
    s'.service.pending.get? id = none ∨ Ends id a s s' := by
  have hbudget := h.inv.budget
  cases hmove with
  | busy ha => exact .inr ⟨hwaits, le_rfl, fun hends => absurd hends (not_ends_of_event ha)⟩
  | submits ha hpolling hentered hsame _ =>
    refine .inr ⟨?_, ?_, fun hends => absurd hends (not_ends_of_event ha)⟩
    · unfold Waits
      rwa [hsame.pending, outcome_entered hentered]
    · simp [remaining, hpolling, hsame.capacity]
  | polls hpolling =>
    refine .inr ⟨hwaits, le_rfl, fun hends => ?_⟩
    simp only [ends, remaining, hpolling, if_true] at hends
    omega
  | @flushes p service hpolling hsame =>
    have hlt : remaining { s with polling := some p, service } < remaining s := by
      simp only [remaining, outstanding, hpolling, hsame.worker, Option.isSome_some, Option.isSome_none, if_true,
        Bool.false_eq_true, if_false] at hbudget ⊢
      omega
    refine .inr ⟨?_, hlt.le, fun _ => hlt⟩
    unfold Waits
    rwa [hsame.pending]
  | rests hpolling =>
    refine .inr ⟨hwaits, le_rfl, fun hends => ?_⟩
    simp [ends, remaining, hpolling] at hends
  | @drains p item rest hpolling hresults =>
    have hout := outstanding_cons hresults
    have hid : id ≠ item.1 := by
      rintro rfl
      exact hwaits.not_mem h.inv (by rw [hout]; exact List.mem_cons_self)
    have hlt (s' : Handoff) (hpolling' : s'.polling = some p) (hs' : s'.outstanding = rest.map Prod.fst ++
        (s.service.worker.sending.toList ++ s.service.worker.work.map Prod.fst)) : remaining s' < remaining s := by
      simp only [remaining, hpolling, hpolling', hout, hs', Option.isSome_some, if_true, List.length_cons]
      omega
    refine .inr ⟨?_, (hlt _ (by exact hpolling) rfl).le, fun _ => hlt _ (by exact hpolling) rfl⟩
    unfold Waits
    dsimp only
    rwa [outcome_takeResult, if_neg hid]
  | ends hpolling hresults hsettled =>
    obtain ⟨hupdate, hraises⟩ := hreturns _ hpolling
    obtain ⟨result, hresult⟩ := Option.isSome_iff_exists.mp hwaits
    obtain ⟨e, he, hresult⟩ := Option.bind_eq_some_iff.mp hresult
    left
    dsimp only
    rw [hsettled.get, he]
    simp [Service.settle, hresult, hupdate, hraises]
  | waits | closes => exact absurd rfl hclose
  | thread hmove =>
    have hout := hmove.outstanding_eq
    cases hmove <;> exact .inr ⟨hwaits, by simp only [remaining, hout]; exact le_rfl, False.elim⟩

theorem Move.polling (hmove : Move s a output s') (hp : s'.polling = some p) : s.polling = some p ∨ a = .poll p := by
  cases hmove with
  | flushes _ _ =>
    cases hp
    exact .inr rfl
  | ends _ _ _ => cases hp
  | thread hmove => cases hmove <;> exact .inl hp
  | _ => exact .inl hp

/-- An event that is reported as pending is in flight. -/
theorem Move.in_flight {submitted : Bool} (hmove : Move s a (some (.pending, submitted)) s') (ha : a.event = some id) :
    ∃ e, s'.service.pending.get? id = some e := by
  cases hmove with
  | submits ha' _ hentered hsame _ =>
    obtain rfl := Option.some.inj (ha.symm.trans ha')
    dsimp only
    rw [hsame.pending]
    cases hentered with
    | same hout => exact absurd rfl hout
    | joined _ | admitted _ _ _ =>
      dsimp only
      rw [Dict.get?_set, if_pos rfl]
      exact ⟨_, rfl⟩

end Handoff

/-! ## Whole runs -/

namespace Execution

open Handoff

variable {capacity : Nat} {rows : EventId → Option DeliveryResult} {x : Execution capacity rows}

theorem live (hclose : ∀ n, x.action n ≠ .close) (hstarts : ∀ n, (x.action n).starts) (n : Nat) :
    (x.state n).Live ∧ (x.state n).service.capacity = capacity := by
  induction n with
  | zero =>
    rw [x.start]
    exact ⟨Live.init capacity rows, rfl⟩
  | succ n ih =>
    have hmove := Move.of_step ih.1.inv (hstarts n)
    rw [x.next]
    exact ⟨ih.1.move (hclose n) hmove, hmove.kept.1.trans ih.2⟩

theorem move (hclose : ∀ n, x.action n ≠ .close) (hstarts : ∀ n, (x.action n).starts) (n : Nat) :
    Move (x.state n) (x.action n) (x.output n) (x.state (n + 1)) := by
  rw [x.next]
  exact .of_step (live hclose hstarts n).1.inv (hstarts n)

variable {n : Nat} {id : EventId}

theorem last_step {P : Nat → Prop} {m : Nat} (hle : n ≤ m) (hn : P n) (hm : ¬P m) : ∃ k, n ≤ k ∧ P k ∧ ¬P (k + 1) := by
  induction m, hle using Nat.le_induction with
  | base => exact absurd hn hm
  | succ m hle ih =>
    by_cases hP : P m
    · exact ⟨m, hle, hP, hm⟩
    · exact ih hP

theorem Lively.brings (h : x.Lively) (r n : Nat) : ∃ m, n ≤ m ∧ Handoff.brings r (x.action m) := by
  rcases (by omega : r % 5 = 0 ∨ r % 5 = 1 ∨ 1 < r % 5) with hr | hr | hr
  · obtain ⟨m, hm, haction⟩ := h.drains n
    exact ⟨m, hm, by rw [haction]; exact hr⟩
  · obtain ⟨m, hm, p, haction⟩ := h.polls n
    exact ⟨m, hm, by rw [haction]; exact hr⟩
  · obtain ⟨m, hm, answer, haction⟩ := h.runs n
    exact ⟨m, hm, by rw [haction]; exact hr⟩

theorem Lively.ends (h : x.Lively) (r n : Nat) : ∃ m, n ≤ m ∧ Handoff.ends capacity r (x.action m) := by
  by_cases hr : r = capacity + 2
  · obtain ⟨m, hm, p, haction⟩ := h.polls n
    exact ⟨m, hm, by rw [haction]; exact hr⟩
  · obtain ⟨m, hm, haction⟩ := h.drains n
    exact ⟨m, hm, by rw [haction]; exact hr⟩

theorem eventually_waits (h : x.Lively) (hstarts : ∀ n, (x.action n).starts) (hid : id ∈ (x.state n).outstanding) :
    ∃ m, n < m ∧ Waits id (x.state m) := by
  have hstep (k : Nat) (hk : id ∈ (x.state k).outstanding) :
      Waits id (x.state (k + 1)) ∨ Advances id (x.action k) (x.state k) (x.state (k + 1)) :=
    advances (live h.stays hstarts k).1 hk (move h.stays hstarts k)
  have hgone (k : Nat) (hk : Waits id (x.state k)) : id ∉ (x.state k).outstanding :=
    hk.not_mem (live h.stays hstarts k).1.inv
  obtain ⟨m, hm, hnot⟩ := eventually_not (P := fun s => id ∈ s.outstanding) h.brings
    (fun k hk => (hstep k hk).imp (hgone (k + 1)) Advances.le)
    (fun k hk hbrings => (hstep k hk).imp (hgone (k + 1)) fun hadv => hadv.lt hbrings) n
  obtain ⟨k, hnk, hk, hlast⟩ := last_step (P := fun k => id ∈ (x.state k).outstanding) hm hid hnot
  exact ⟨k + 1, by omega, (hstep k hk).resolve_right fun hadv => hlast hadv.mem⟩

/-- Every event with a result leaves the service when the writes and the callbacks return. -/
theorem eventually_settled (h : x.Lively) (hstarts : ∀ n, (x.action n).starts)
    (hreturns : ∀ n p, x.action n = .poll p → p.Returns) (hid : Waits id (x.state n)) :
    ∃ m, n < m ∧ (x.state m).service.pending.get? id = none := by
  have hpolling (k : Nat) (p : Polling) (hp : (x.state k).polling = some p) : p.Returns := by
    induction k with
    | zero =>
      rw [x.start] at hp
      cases hp
    | succ k ih =>
      rcases (move h.stays hstarts k).polling hp with hbefore | haction
      · exact ih hbefore
      · exact hreturns k p haction
  have hstep (k : Nat) (hk : Waits id (x.state k)) :
      (x.state (k + 1)).service.pending.get? id = none ∨ Ends id (x.action k) (x.state k) (x.state (k + 1)) :=
    ends_step (h.stays k) (live h.stays hstarts k).1 hk (hpolling k) (move h.stays hstarts k)
  have hgone (k : Nat) (hk : (x.state k).service.pending.get? id = none) : ¬Waits id (x.state k) := by
    simp [Waits, outcome, hk]
  obtain ⟨m, hm, hnot⟩ := eventually_not (P := Waits id) h.ends
    (fun k hk => (hstep k hk).imp (hgone (k + 1)) Ends.le)
    (fun k hk hends => (hstep k hk).imp (hgone (k + 1)) fun hstep' =>
      hstep'.lt (by rwa [(live h.stays hstarts k).2])) n
  obtain ⟨k, hnk, hk, hlast⟩ := last_step (P := fun k => Waits id (x.state k)) hm hid hnot
  exact ⟨k + 1, by omega, (hstep k hk).resolve_right fun hends => hlast hends.waits⟩

end Execution

namespace Handoff

/-- While fewer events than the capacity are in flight, the next one is taken. -/
theorem Live.room {s : Handoff} (h : Live s) (hpolling : s.polling = none) (hsize : s.service.pending.size < s.service.capacity)
    {event : NotificationEvent} (hkind : event.kind.immediate = true) (hnew : s.service.pending.get? event.id = none)
    (hretained : s.service.unpersisted.get? event.id = none) {recovered : Bool} {r : Recording} (hstarts : r.starts = true) :
    (Handoff.step (.record event callback recovered r) s).1 = some (.pending, true) ∧
      (Handoff.step (.record event callback recovered r) s).2.service.pending.size = s.service.pending.size + 1 := by
  have hsubmit := h.inv.submit_eq h.opened hsize event.id (event.kind.text recovered)
  have hresult : ¬(s.service.closed = true ∨ s.service.capacity ≤ s.service.pending.size) := by
    rw [h.opened]
    simpa using hsize
  have hsink := Service.Same.localSink s.service r.write { event with delivery := .pending }
  simp only [Handoff.step, submits, hpolling, Service.record, hretained, hkind, Bool.true_or, if_true, Service.enqueue, hnew,
    h.configured, Bool.not_true, Bool.false_eq_true, if_false, hresult, ne_eq, not_true_eq_false, hsink.worker,
    hsink.pending, hstarts, hsubmit]
  exact ⟨trivial, Dict.size_set_of_none hnew _⟩

end Handoff

/-- When every start of the thread succeeds, no `record` fails because of a start, every event that is reported as pending is
sent, gets the result that the thread published and leaves the service if the writes and the callbacks return, and as many
events as the capacity allows are taken. -/
theorem delivery_goes_on (capacity : Nat) (rows : EventId → Option DeliveryResult) (x : Execution capacity rows)
    (hlively : x.Lively) (hstarts : ∀ n, (x.action n).starts) :
    (∀ n, x.output n ≠ some (.failed, true)) ∧
    (∀ n id submitted, (x.action n).event = some id → x.output n = some (.pending, submitted) →
      (∃ m e result, n < m ∧ (x.state m).service.pending.get? id = some e ∧ e.result = some result ∧
        id ∈ (x.state m).sent ∧ (id, result) ∈ (x.state m).published ∧ (id, result) ∈ (x.state m).drained) ∧
      ((∀ n p, x.action n = .poll p → p.Returns) → ∃ m, n < m ∧ (x.state m).service.pending.get? id = none)) ∧
    (∀ n, (x.state n).polling = none → (x.state n).service.pending.size < capacity →
      ∀ event callback recovered r, event.kind.immediate = true → r.starts = true →
        (x.state n).service.pending.get? event.id = none → (x.state n).service.unpersisted.get? event.id = none →
        (Handoff.step (.record event callback recovered r) (x.state n)).1 = some (.pending, true) ∧
          (Handoff.step (.record event callback recovered r) (x.state n)).2.service.pending.size =
            (x.state n).service.pending.size + 1) := by
  have hlive := Execution.live hlively.stays hstarts
  refine ⟨fun n => (Execution.move hlively.stays hstarts n).output_ne, fun n id submitted hid houtput => ?_, ?_⟩
  · have hmove := Execution.move hlively.stays hstarts n
    rw [houtput] at hmove
    obtain ⟨e, he⟩ := hmove.in_flight hid
    have hwaits : ∃ m, n < m ∧ Handoff.Waits id (x.state m) := by
      cases hresult : e.result with
      | none =>
        obtain ⟨m, hm, hwaits⟩ := Execution.eventually_waits hlively hstarts
          (((hlive (n + 1)).1.inv.entry id).mpr ⟨e, he, hresult⟩)
        exact ⟨m, by omega, hwaits⟩
      | some result => exact ⟨n + 1, by omega, by simp [Handoff.Waits, Handoff.outcome, he, hresult]⟩
    obtain ⟨m, hm, hmwaits⟩ := hwaits
    refine ⟨?_, fun hreturns => ?_⟩
    · obtain ⟨result, houtcome⟩ := Option.isSome_iff_exists.mp hmwaits
      obtain ⟨e', he', hresult⟩ := Option.bind_eq_some_iff.mp houtcome
      have hdrained := (hlive m).1.drained id result houtcome
      have hpublished : (id, result) ∈ (x.state m).published := by
        rw [(hlive m).1.inv.published]
        exact List.mem_append_left _ hdrained
      refine ⟨m, e', result, hm, he', hresult, ?_, hpublished, hdrained⟩
      rw [(hlive m).1.inv.sent]
      exact List.mem_append_left _ (List.mem_map_of_mem hpublished)
    · obtain ⟨m', hm', hnone⟩ := Execution.eventually_settled hlively hstarts hreturns hmwaits
      exact ⟨m', by omega, hnone⟩
  · intro n hpolling hsize event callback recovered r hkind hstart hnew hretained
    exact (hlive n).1.room hpolling (hsize.trans_eq (hlive n).2.symm) hkind hnew hretained hstart

/-- The run with these actions. -/
def Execution.of (capacity : Nat) (rows : EventId → Option DeliveryResult) (action : Nat → Action) :
    Execution capacity rows where
  state n := n.rec (.init capacity true rows) fun n s => (Handoff.step (action n) s).2
  action := action
  start := rfl
  next _ := rfl

/-- `poll`, its turns and the delivery thread after each other, for ever. -/
def rounds (n : Nat) : Action :=
  if n % 3 = 0 then .poll {} else if n % 3 = 1 then .drain else .thread none

theorem starts_rounds (n : Nat) : (rounds n).starts := by
  unfold rounds
  split_ifs <;> trivial

/-- Some actions first. -/
def before (first : List Action) (n : Nat) : Action := first.getD n (rounds n)

theorem lively_before {capacity : Nat} {rows : EventId → Option DeliveryResult} (hfirst : .close ∉ first) :
    (Execution.of capacity rows (before first)).Lively := by
  have hrounds (n k : Nat) : before first (3 * (n + first.length) + k) = rounds (3 * (n + first.length) + k) := by
    rw [before, List.getD_eq_default _ _ (by omega)]
  refine ⟨fun n => ⟨3 * (n + first.length) + 2, by omega, none, ?_⟩, fun n => ⟨3 * (n + first.length) + 0, by omega, {}, ?_⟩,
    fun n => ⟨3 * (n + first.length) + 1, by omega, ?_⟩, fun n => ?_⟩
  · exact (hrounds n 2).trans (by simp [rounds, Nat.add_mod])
  · exact (hrounds n 0).trans (by simp [rounds])
  · exact (hrounds n 1).trans (by simp [rounds, Nat.add_mod])
  · show before first n ≠ .close
    unfold before
    by_cases hn : n < first.length
    · rw [List.getD_eq_getElem _ _ hn]
      exact fun h => hfirst (h ▸ List.getElem_mem hn)
    · rw [List.getD_eq_default _ _ (by omega)]
      unfold rounds
      split_ifs <;> nofun

/-- The recording of an access fault, with or without a thread that can be started. -/
def faultRecorded (id : Nat) (starts : Bool) : Action :=
  .record { kind := .humanAccessFault, time := 0, confirmed := false, id := .other id } false false { starts }

theorem starts_before (hfirst : ∀ a ∈ first, a.starts) (n : Nat) : (before first n).starts := by
  unfold before
  by_cases hn : n < first.length
  · rw [List.getD_eq_getElem _ _ hn]
    exact hfirst _ (List.getElem_mem hn)
  · rw [List.getD_eq_default _ _ (by omega)]
    exact starts_rounds n

theorem delivery_goes_on_recorded :
    ∃ m, .other 7 ∈ ((Execution.of 1 (fun _ => none) (before [faultRecorded 7 true])).state m).sent := by
  have hgoes := (delivery_goes_on 1 (fun _ => none) (.of 1 _ (before [faultRecorded 7 true]))
    (lively_before (by simp [faultRecorded])) (starts_before (by simp [faultRecorded, Action.starts]))).2.1
  obtain ⟨⟨m, e, result, -, -, -, hsent, -⟩, -⟩ := hgoes 0 (.other 7) true rfl (by decide)
  exact ⟨m, hsent⟩

/-- The first start fails, and every later one would succeed. -/
def failedStart : Execution 2 fun _ => none := .of 2 _ (before [faultRecorded 1 false, faultRecorded 2 true])

theorem failedStart_stuck (n : Nat) :
    (failedStart.state (n + 2)).service = (failedStart.state 2).service ∧ (failedStart.state (n + 2)).sent = [] := by
  induction n with
  | zero => exact ⟨rfl, rfl⟩
  | succ n ih =>
    obtain ⟨hservice, hsent⟩ := ih
    have hstep : failedStart.state (n + 1 + 2) = (Handoff.step (rounds (n + 2)) (failedStart.state (n + 2))).2 :=
      failedStart.next (n + 2)
    rw [hstep]
    unfold rounds
    split_ifs
    · unfold Handoff.step
      dsimp only
      split
      · exact ⟨hservice, hsent⟩
      · rw [hservice]
        exact ⟨rfl, hsent⟩
    · unfold Handoff.step Handoff.drain
      dsimp only
      rw [hservice]
      split
      · exact ⟨hservice, hsent⟩
      · exact ⟨rfl, hsent⟩
    · have hthread : (failedStart.state (n + 2)).service.worker.thread ≠ some true := by
        rw [hservice]
        decide
      unfold Handoff.step Handoff.threadStep
      dsimp only
      rw [if_pos hthread]
      exact ⟨hservice, hsent⟩

/-- An event that is reported as pending after a failed start is never sent, and the event that could not be sent still
takes a place. -/
theorem failed_start_disables_delivery :
    failedStart.Lively ∧ (∀ n, 0 < n → (failedStart.action n).starts) ∧ failedStart.output 0 = some (.failed, true) ∧
    ((failedStart.action 1).event = some (.other 2) ∧ failedStart.output 1 = some (.pending, true)) ∧
    (∀ n, 1 < n → (∃ e, (failedStart.state n).service.pending.get? (.other 2) = some e ∧ e.result = none) ∧
      (failedStart.state n).sent = []) ∧
    ((failedStart.state 2).polling = none ∧ (failedStart.state 2).service.pending.size = 1 ∧
      (Handoff.step (faultRecorded 3 true) (failedStart.state 2)).1 = some (.failed, true)) := by
  refine ⟨lively_before (by simp [faultRecorded]), fun n hn => ?_, rfl, ⟨rfl, rfl⟩, fun n hn => ?_, rfl, rfl, rfl⟩
  · obtain ⟨n, rfl⟩ := Nat.exists_eq_add_of_lt hn
    show (before [faultRecorded 1 false, faultRecorded 2 true] (0 + n + 1)).starts
    cases n with
    | zero => rfl
    | succ n => exact starts_rounds (0 + (n + 1) + 1)
  · obtain ⟨n, rfl⟩ := Nat.exists_eq_add_of_le' hn
    obtain ⟨hservice, hsent⟩ := failedStart_stuck n
    rw [hservice]
    exact ⟨⟨_, rfl, rfl⟩, hsent⟩

end Sentinel.Notifications
