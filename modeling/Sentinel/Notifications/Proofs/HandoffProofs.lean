import Sentinel.Lib.Proofs.DictProofs
import Sentinel.Notifications.Handoff

/-!
# Proofs: completions are delivered exactly once

The deliveries that are outstanding are, without repetition, the events in flight that have no result yet
(`Inv.entry`), so that there are never more of them than events in flight, and the budget, of which each of them holds one
unit, covers every event that the service admits.
-/

namespace Sentinel.Notifications

open Sentinel.Presence (Fate Time)

/-! ## Calls of the service -/

namespace Service

/-- An event whose write is retried is not in flight. -/
def Final (s : Service) : Prop := ∀ id e, s.unpersisted.get? id = some e → e.delivery ≠ .pending

/-- At most the events in flight were changed. -/
structure Rest (s s' : Service) : Prop where
  worker : s'.worker = s.worker
  capacity : s'.capacity = s.capacity
  closed : s'.closed = s.closed
  configured : s'.configured = s.configured
  final : Final s → Final s'

/-- Nothing that the threads share or that the budget depends on was changed. -/
structure Same (s s' : Service) : Prop extends Rest s s' where
  pending : s'.pending = s.pending

variable {s s' : Service} {event : NotificationEvent} {number : Option Nat} {r : Recording} {p : Polling}

theorem Rest.refl (s : Service) : Rest s s := ⟨rfl, rfl, rfl, rfl, fun h => h⟩

variable {s'' : Service}

theorem Rest.trans (h : Rest s s') (h' : Rest s' s'') : Rest s s'' :=
  ⟨h'.worker.trans h.worker, h'.capacity.trans h.capacity, h'.closed.trans h.closed, h'.configured.trans h.configured,
    fun hf => h'.final (h.final hf)⟩

theorem Same.refl (s : Service) : Same s s := ⟨.refl s, rfl⟩

theorem Same.trans (h : Same s s') (h' : Same s' s'') : Same s s'' :=
  ⟨h.toRest.trans h'.toRest, h'.pending.trans h.pending⟩

theorem Same.localSink (s : Service) (fate : Fate) (event : NotificationEvent) : Same s (s.localSink fate event).2 := by
  cases fate <;> exact ⟨⟨rfl, rfl, rfl, rfl, fun h => h⟩, rfl⟩

theorem Same.retain (s : Service) (hevent : event.delivery ≠ .pending) : Same s (s.retain event).2 := by
  unfold Service.retain
  split_ifs
  · refine ⟨⟨rfl, rfl, rfl, rfl, fun h id e he => ?_⟩, rfl⟩
    rw [Dict.get?_set] at he
    split_ifs at he
    · exact Option.some.inj he ▸ hevent
    · exact h id e he
  · exact .refl s

theorem Same.erase (s : Service) (id : EventId) : Same s { s with unpersisted := s.unpersisted.erase id } := by
  refine ⟨⟨rfl, rfl, rfl, rfl, fun h k e he => ?_⟩, rfl⟩
  rw [Dict.get?_erase] at he
  split_ifs at he
  exact h k e he

theorem Same.flush (p : Polling) (items : List (EventId × NotificationEvent)) (s : Service) :
    Same s (items.foldl (Service.flushOne p) s) := by
  induction items generalizing s with
  | nil => exact .refl s
  | cons item items ih =>
    refine Same.trans ?_ (ih (Service.flushOne p s item))
    have hsink := Same.localSink s (p.flush item.1) item.2
    unfold Service.flushOne
    dsimp only
    split_ifs
    · exact hsink.trans (.erase ..)
    · exact hsink

/-- What a call of `record` or `daily` for an event returns and makes of the events in flight and of the worker. -/
inductive Entered (s : Service) (id : EventId) (number : Option Nat) :
    DeliveryResult × Bool → Dict EventId InFlight → DeliveryWorker → Prop
  | same {out : DeliveryResult} (hout : out ≠ .pending) : Entered s id number (out, false) s.pending s.worker
  | joined {out : DeliveryResult} {entry : InFlight} (hentry : s.pending.get? id = some entry) :
      Entered s id number (out, false)
        (s.pending.set id { entry with callbacks := entry.callbacks ++ number.toList }) s.worker
  | admitted {event : NotificationEvent} {text : String} (hnone : s.pending.get? id = none)
      (hsize : s.pending.size < s.capacity) (hopen : s.closed = false) :
      Entered s id number (.pending, true) (s.pending.set id ⟨event, number.toList, none⟩)
        (s.worker.submit id text true).2

/-- What such a call does, with the rows and the writes to retry. -/
def Submission (s : Service) (id : EventId) (number : Option Nat) (r : (DeliveryResult × Bool) × Service) : Prop :=
  ∃ pending worker, Entered s id number r.1 pending worker ∧ Same { s with pending, worker } r.2

theorem Submission.same {out : DeliveryResult} {id : EventId} (hout : out ≠ .pending) (h : Same s s') :
    Submission s id number ((out, false), s') :=
  ⟨s.pending, s.worker, .same hout, h⟩

/-- An event that the service admits is taken by the worker. -/
def Roomy (s : Service) : Prop :=
  s.closed = false → s.pending.size < s.capacity → ∀ id text, (s.worker.submit id text true).1 = true

theorem enqueue_submission {text : String} {retains : Bool} (hroom : Roomy s) (hstarts : r.starts = true) :
    Submission s event.id number (s.enqueue event text number retains r) := by
  unfold enqueue
  split
  · rename_i entry hentry
    split_ifs
    · exact ⟨_, _, .joined hentry, .refl _⟩
    · exact .same (by decide) (.refl s)
  · rename_i hnone
    dsimp only
    by_cases hresult : (if (!s.configured) = true then DeliveryResult.disabled
      else if s.closed = true ∨ s.capacity ≤ s.pending.size then .failed else .pending) = .pending
    swap
    · generalize (if (!s.configured) = true then DeliveryResult.disabled
        else if s.closed = true ∨ s.capacity ≤ s.pending.size then .failed else .pending) = result at hresult
      have hsink := Same.localSink s r.write { event with delivery := result }
      rw [if_pos hresult]
      split_ifs
      · exact .same hresult hsink
      · exact .same (by decide) (hsink.trans (.retain _ hresult))
      · exact .same (by decide) hsink
    · have hadmitted : s.closed = false ∧ s.pending.size < s.capacity := by
        split_ifs at hresult with _ hfull
        simpa [not_or] using hfull
      rw [hresult, if_neg (by decide)]
      have hsink := Same.localSink s r.write { event with delivery := .pending }
      generalize s.localSink r.write { event with delivery := .pending } = sunk at hsink ⊢
      have hsubmit := hroom hadmitted.1 hadmitted.2 event.id text
      rw [hstarts, hsink.worker, if_pos hsubmit]
      refine ⟨_, _, @Entered.admitted s event.id number { event with delivery := .pending } text hnone hadmitted.2
        hadmitted.1, { hsink with worker := rfl }, ?_⟩
      dsimp only
      rw [hsink.pending]

theorem record_submission {recovered : Bool} (hroom : Roomy s) (hfinal : Final s) (hevent : event.delivery ≠ .pending)
    (hstarts : r.starts = true) : Submission s event.id number (s.record event number recovered r) := by
  unfold record
  split
  · rename_i prior hprior
    have hsink := Same.localSink s r.write prior
    split_ifs
    · dsimp only
      split_ifs
      · exact .same (hfinal _ _ hprior) (hsink.trans (.erase ..))
      · exact .same (by decide) hsink
    · exact .same (by decide) (.refl s)
  · split_ifs
    · exact enqueue_submission hroom hstarts
    · have hsink := Same.localSink s r.write event
      dsimp only
      split_ifs
      · exact .same (by decide) hsink
      all_goals exact .same (by decide) (hsink.trans (.retain _ hevent))

/-! ## The end of a poll -/

/-- What the end of a `poll` leaves of an event. -/
def settle (p : Polling) (id : EventId) (entry : InFlight) : Option InFlight :=
  if entry.result.isSome = true ∧ p.update id = .returns then
    if entry.callbacks.filter (p.raises id) = [] then none
    else some { entry with callbacks := entry.callbacks.filter (p.raises id) }
  else some entry

theorem pollOne_spec {item : EventId × InFlight} (hitem : s.pending.get? item.1 = some item.2) :
    (∀ id, (s.pollOne p item).pending.get? id =
      if id = item.1 then settle p item.1 item.2 else s.pending.get? id) ∧
      (s.pollOne p item).pending.size ≤ s.pending.size ∧ Rest s (s.pollOne p item) := by
  have hself (id : EventId) : s.pending.get? id = if id = item.1 then some item.2 else s.pending.get? id := by
    split_ifs with h
    · rw [h, hitem]
    · rfl
  unfold pollOne settle
  cases hresult : item.2.result with
  | none => exact ⟨by simpa using hself, le_rfl, .refl s⟩
  | some result =>
    dsimp only
    have hsink := Same.localSink s (p.update item.1) { item.2.event with delivery := result }
    have hwritten : (s.localSink (p.update item.1) { item.2.event with delivery := result }).1 = true ↔
        p.update item.1 = .returns := by
      cases p.update item.1 <;> simp [localSink]
    generalize s.localSink (p.update item.1) { item.2.event with delivery := result } = sunk at hsink hwritten ⊢
    by_cases hreturns : p.update item.1 = .returns
    swap
    · have hrefused : (!sunk.1) = true := by simpa using mt hwritten.mp hreturns
      have hkept : ¬((some result).isSome = true ∧ p.update item.1 = .returns) := fun h => hreturns h.2
      rw [if_pos hrefused, if_neg hkept, hsink.pending]
      exact ⟨hself, le_rfl, hsink.toRest⟩
    have hsunk : ¬(!sunk.1) = true := by simpa using hwritten.mpr hreturns
    have hsettled : (some result).isSome = true ∧ p.update item.1 = .returns := ⟨rfl, hreturns⟩
    rw [if_neg hsunk, if_pos hsettled]
    by_cases hfailed : item.2.callbacks.filter (p.raises item.1) = []
    · rw [if_neg (not_not.mpr hfailed), if_pos hfailed]
      dsimp only
      rw [hsink.pending]
      exact ⟨fun id => Dict.get?_erase _ _ _, Dict.size_erase_le _ _, { hsink with }⟩
    · rw [if_pos hfailed, if_neg hfailed]
      dsimp only
      rw [hsink.pending]
      refine ⟨fun id => ?_, (Dict.size_set_of_some hitem _).le, { hsink with }⟩
      rw [Dict.get?_set, hresult]

theorem foldl_pollOne_spec (items : List (EventId × InFlight)) (hnodup : (items.map Prod.fst).Nodup)
    (hitems : ∀ item ∈ items, s.pending.get? item.1 = some item.2) :
    (∀ id, (items.foldl (pollOne p) s).pending.get? id =
      if id ∈ items.map Prod.fst then (s.pending.get? id).bind (settle p id) else s.pending.get? id) ∧
      (items.foldl (pollOne p) s).pending.size ≤ s.pending.size ∧ Rest s (items.foldl (pollOne p) s) := by
  induction items generalizing s with
  | nil => exact ⟨fun id => by simp, le_rfl, .refl s⟩
  | cons item items ih =>
    obtain ⟨hget, hsize, hone⟩ := @pollOne_spec s p item (hitems item List.mem_cons_self)
    obtain ⟨hnotMem, hrest⟩ := List.nodup_cons.mp hnodup
    have hothers : ∀ other ∈ items, (s.pollOne p item).pending.get? other.1 = some other.2 := by
      intro other hother
      have hne : other.1 ≠ item.1 := by
        rintro heq
        exact hnotMem (heq ▸ List.mem_map_of_mem hother)
      rw [hget, if_neg hne, hitems other (List.mem_cons_of_mem _ hother)]
    obtain ⟨hget', hsize', hothers⟩ := ih hrest hothers
    refine ⟨fun id => ?_, hsize'.trans hsize, hone.trans hothers⟩
    rw [List.foldl_cons, hget', hget]
    by_cases hid : id = item.1
    · subst hid
      simp [hnotMem, hitems item List.mem_cons_self]
    · simp only [hid, if_false, List.map_cons, List.mem_cons, false_or]

/-- The end of a `poll`. -/
structure Settled (p : Polling) (s s' : Service) : Prop extends Rest s s' where
  get : ∀ id, s'.pending.get? id = (s.pending.get? id).bind (settle p id)
  size : s'.pending.size ≤ s.pending.size

theorem Settled.of_entries (p : Polling) (s : Service) : Settled p s (s.pending.entries.foldl (pollOne p) s) := by
  obtain ⟨hget, hsize, hrest⟩ := @foldl_pollOne_spec s p s.pending.entries s.pending.nodup
    fun item hitem => Dict.get?_eq_some_iff.mpr hitem
  refine ⟨hrest, fun id => ?_, hsize⟩
  rw [hget]
  split_ifs with hmem
  · rfl
  · rw [Dict.get?_eq_none_iff.mpr hmem]
    rfl

end Service

/-! ## The worker -/

namespace DeliveryWorker

variable {w : DeliveryWorker} {id : EventId} {text : String}

theorem submit_eq (hstopped : w.stopped = false) (hbudget : w.budget ≠ 0) (hwork : w.work.length < w.capacity)
    (hthread : w.thread ≠ some false) :
    w.submit id text true =
      (true, { w with work := w.work ++ [(id, text)], budget := w.budget - 1, thread := some true }) := by
  unfold submit
  rw [if_neg (by simp [hstopped, hbudget]; omega)]
  cases hw : w.thread with
  | none => rfl
  | some started =>
    cases started with
    | true => rfl
    | false => exact absurd hw hthread

end DeliveryWorker

/-! ## The counting invariant -/

namespace Handoff

variable {s : Handoff}

/-- The queues agree with the events in flight. -/
structure Inv (s : Handoff) : Prop where
  nodup : s.outstanding.Nodup
  entry : ∀ id, id ∈ s.outstanding ↔ ∃ e, s.service.pending.get? id = some e ∧ e.result = none
  budget : s.service.worker.budget + s.outstanding.length = s.service.capacity
  capacity : s.service.worker.capacity = s.service.capacity
  size : s.service.pending.size ≤ s.service.capacity
  stopped : s.service.worker.stopped = s.service.closed
  thread : s.service.worker.thread ≠ some false
  started : s.outstanding ≠ [] → s.service.worker.thread = some true
  ready : s.service.worker.results ≠ [] → s.ready = true
  sent : s.sent = s.published.map Prod.fst ++ s.service.worker.sending.toList
  published : s.published = s.drained ++ s.service.worker.results
  final : s.service.Final

theorem Inv.init (capacity : Nat) (configured : Bool) (rows : EventId → Option DeliveryResult) :
    Inv (init capacity configured rows) := by
  refine ⟨List.nodup_nil, fun id => ?_, by simp [Handoff.init, outstanding], rfl, Nat.zero_le _, rfl, nofun, nofun, nofun,
    rfl, rfl, fun id e he => ?_⟩
  · simp [Handoff.init, outstanding, Dict.get?, Dict.empty]
  · simp [Handoff.init, Dict.get?, Dict.empty] at he

theorem Inv.outstanding_le (h : Inv s) : s.outstanding.length ≤ s.service.pending.size := by
  have hsub : s.outstanding ⊆ s.service.pending.keys := by
    intro id hid
    obtain ⟨e, he, -⟩ := (h.entry id).mp hid
    exact Dict.mem_keys_iff.mpr ⟨e, he⟩
  have hlen := (h.nodup.subperm hsub).length_le
  simpa [Dict.keys, Dict.size] using hlen

theorem Inv.submit_eq (h : Inv s) (hopen : s.service.closed = false) (hsize : s.service.pending.size < s.service.capacity)
    (id : EventId) (text : String) :
    s.service.worker.submit id text true =
      (true, { s.service.worker with
        work := s.service.worker.work ++ [(id, text)], budget := s.service.worker.budget - 1, thread := some true }) := by
  have hle := h.outstanding_le
  have hbudget := h.budget
  have hwork : s.service.worker.work.length ≤ s.outstanding.length := by
    simp [outstanding]
    omega
  refine DeliveryWorker.submit_eq (h.stopped.trans hopen) (by omega) ?_ h.thread
  rw [h.capacity]
  omega

variable {service : Service} {id : EventId} {e : InFlight} {number : Option Nat} {out : DeliveryResult × Bool}
  {pending : Dict EventId InFlight} {worker : DeliveryWorker} {output : Option (DeliveryResult × Bool)} {a : Action}
  {p : Polling} {s' : Handoff} {d : Dict EventId InFlight} {configured : Bool} {capacity : Nat}
  {h : List (Event Handoff Action (Option (DeliveryResult × Bool)))} {rows : EventId → Option DeliveryResult}

/-- A call that leaves which events in flight have no result, and admits none. -/
theorem Inv.rest (h : Inv s) (hrest : s.service.Rest service)
    (hentry : ∀ id, (∃ e, service.pending.get? id = some e ∧ e.result = none) ↔
      ∃ e, s.service.pending.get? id = some e ∧ e.result = none)
    (hsize : service.pending.size ≤ s.service.pending.size) : Inv { s with service } := by
  obtain ⟨hworker, hcapacity, hclosed, hconfigured, hfinal⟩ := hrest
  obtain ⟨capacity, configured, worker, pending, unpersisted, closed, rows⟩ := service
  dsimp only at hworker hcapacity hclosed hconfigured
  subst hworker hcapacity hclosed hconfigured
  exact { h with
    entry := fun id => (h.entry id).trans (hentry id).symm, size := hsize.trans h.size, final := hfinal h.final }

theorem Inv.same (h : Inv s) (hsame : s.service.Same service) : Inv { s with service } := by
  refine h.rest hsame.toRest (fun id => ?_) ?_
  · rw [hsame.pending]
  · rw [hsame.pending]

theorem Inv.set (h : Inv s) (e' : InFlight) (hget : s.service.pending.get? id = some e) (hresult : e'.result = e.result) :
    Inv { s with service := { s.service with pending := s.service.pending.set id e' } } := by
  refine { h with entry := fun k => ?_, size := ?_ }
  · rw [Dict.get?_set]
    refine (h.entry k).trans ?_
    split_ifs with hk
    · rw [hk, hget]
      simp [hresult]
    · rfl
  · rw [Dict.size_set_of_some hget]
    exact h.size

theorem Inv.admitted {event : NotificationEvent} {text : String} {callbacks : List Nat} (h : Inv s)
    (hnone : s.service.pending.get? id = none) (hsize : s.service.pending.size < s.service.capacity)
    (hopen : s.service.closed = false) : Inv { s with service := { s.service with
      pending := s.service.pending.set id ⟨event, callbacks, none⟩
      worker := (s.service.worker.submit id text true).2 } } := by
  rw [h.submit_eq hopen hsize]
  have hout : outstanding { s with service := { s.service with
      pending := s.service.pending.set id ⟨event, callbacks, none⟩
      worker := { s.service.worker with
        work := s.service.worker.work ++ [(id, text)], budget := s.service.worker.budget - 1, thread := some true } } } =
      s.outstanding ++ [id] := by
    simp [outstanding]
  have hfresh : id ∉ s.outstanding := by
    intro hid
    obtain ⟨e, he, -⟩ := (h.entry id).mp hid
    rw [hnone] at he
    cases he
  have hle := h.outstanding_le
  have hbudget := h.budget
  refine { h with nodup := ?_, entry := fun k => ?_, budget := ?_, size := ?_, thread := nofun, started := fun _ => rfl }
  · rw [hout]
    exact h.nodup.append (List.nodup_singleton id) (by simpa using hfresh)
  · rw [hout, List.mem_append, List.mem_singleton, h.entry k, Dict.get?_set]
    split_ifs with hk
    · simp [hk]
    · simp [hk]
  · rw [hout, List.length_append, List.length_singleton]
    dsimp only
    omega
  · dsimp only
    rw [Dict.size_set_of_none hnone]
    omega

theorem Inv.roomy (h : Inv s) : s.service.Roomy := by
  intro hopen hsize id text
  rw [h.submit_eq hopen hsize]

theorem Inv.entered (h : Inv s) (hentered : s.service.Entered id number out pending worker) :
    Inv { s with service := { s.service with pending, worker } } := by
  cases hentered with
  | same _ => exact h
  | joined hentry => exact h.set _ hentry rfl
  | admitted hnone hsize hopen => exact h.admitted hnone hsize hopen

theorem settle_result : (∃ e', Service.settle p id e = some e' ∧ e'.result = none) ↔ e.result = none := by
  unfold Service.settle
  cases hresult : e.result with
  | none => simp [hresult]
  | some result =>
    split_ifs <;> simp [hresult]

theorem outstanding_cons {item : EventId × DeliveryResult} {rest : List (EventId × DeliveryResult)}
    (h : s.service.worker.results = item :: rest) : s.outstanding = item.1 :: (rest.map Prod.fst ++
      (s.service.worker.sending.toList ++ s.service.worker.work.map Prod.fst)) := by
  rw [outstanding, h]
  rfl

theorem Inv.drains {item : EventId × DeliveryResult} {rest : List (EventId × DeliveryResult)} (h : Inv s)
    (hresults : s.service.worker.results = item :: rest) :
    Inv { s with
      service := Service.takeResult { s.service with
        worker := { s.service.worker with results := rest, budget := s.service.worker.budget + 1 } } item
      drained := s.drained ++ [item] } := by
  have hout := outstanding_cons hresults
  have hnodup := h.nodup
  have hbudget := h.budget
  have hentry := h.entry
  have hpublished := h.published
  rw [hout] at hnodup hbudget hentry
  rw [hresults] at hpublished
  obtain ⟨hnotMem, hrest⟩ := List.nodup_cons.mp hnodup
  refine { h with nodup := hrest, entry := fun id => ?_, budget := ?_, size := ?_, started := ?_, ready := ?_, published := ?_ }
  · unfold Service.takeResult
    dsimp only
    rw [Dict.get?_modify]
    split_ifs with hid
    · rw [hid]
      constructor
      · intro hmem
        exact absurd hmem hnotMem
      · rintro ⟨e, he, hnone⟩
        obtain ⟨e₀, -, rfl⟩ := Option.map_eq_some_iff.mp he
        cases hnone
    · rw [← hentry id, List.mem_cons, or_iff_right hid]
      rfl
  · simp only [List.length_cons] at hbudget
    simp only [Service.takeResult, outstanding]
    omega
  · unfold Service.takeResult
    dsimp only
    rw [Dict.size_modify]
    exact h.size
  · intro _
    exact h.started (by rw [hout]; exact List.cons_ne_nil _ _)
  · intro _
    exact h.ready (by rw [hresults]; exact List.cons_ne_nil _ _)
  · simpa [Service.takeResult] using hpublished

theorem Inv.ends (h : Inv s) (hresults : s.service.worker.results = []) (hsettled : s.service.Settled p service)
    (calls : List (Nat × Bool)) : Inv { s with ready := false, polling := none, service, calls } := by
  refine { h.rest hsettled.toRest (fun id => ?_) hsettled.size with ready := ?_ }
  · rw [hsettled.get]
    cases hid : s.service.pending.get? id with
    | none => simp
    | some e => simpa using settle_result
  · rw [hsettled.worker, hresults]
    exact fun hne => absurd rfl hne

/-- What a step of the delivery thread does. -/
inductive ThreadMove (s : Handoff) : Handoff → Prop
  | rests (hrests : s.service.worker.thread = some true → s.thread = .exited) : ThreadMove s s
  | publishes {id : EventId} {result : DeliveryResult} (hstarted : s.service.worker.thread = some true)
      (hsending : s.service.worker.sending = some id) :
      ThreadMove s { s with
        service := { s.service with worker := { s.service.worker with
          sending := none, results := s.service.worker.results ++ [(id, result)] } }
        ready := true
        published := s.published ++ [(id, result)] }
  | turns (hsending : s.service.worker.sending = none) (hthread : s.thread = .idle) :
      ThreadMove s { s with thread := if s.service.worker.stopped then .exited else .waiting }
  | takes {id : EventId} {text : String} {rest : List (EventId × String)} (hstarted : s.service.worker.thread = some true)
      (hsending : s.service.worker.sending = none) (hthread : s.thread = .waiting)
      (hwork : s.service.worker.work = (id, text) :: rest) :
      ThreadMove s { s with
        service := { s.service with worker := { s.service.worker with work := rest, sending := some id } }
        thread := .idle
        sent := s.sent ++ [id] }
  | misses (hsending : s.service.worker.sending = none) (hthread : s.thread = .waiting)
      (hwork : s.service.worker.work = []) : ThreadMove s { s with thread := .idle }

theorem ThreadMove.of_step (s : Handoff) (answer : Option DeliveryResult) : ThreadMove s (s.threadStep answer) := by
  unfold Handoff.threadStep
  dsimp only
  by_cases hstarted : s.service.worker.thread = some true
  swap
  · rw [if_pos hstarted]
    exact .rests fun h => absurd h hstarted
  rw [if_neg (not_not.mpr hstarted)]
  split
  · rename_i id hsending
    obtain ⟨result, hpublish⟩ : ∃ result, s.service.worker.publish answer =
        { s.service.worker with sending := none, results := s.service.worker.results ++ [(id, result)] } := by
      unfold DeliveryWorker.publish
      rw [hsending]
      exact ⟨_, rfl⟩
    rw [hpublish, List.drop_left]
    exact .publishes hstarted hsending
  · rename_i hsending
    split
    · rename_i hthread
      exact .turns hsending hthread
    · rename_i hthread
      cases hwork : s.service.worker.work with
      | nil =>
        have htake : s.service.worker.take = s.service.worker := by simp [DeliveryWorker.take, hsending, hwork, hstarted]
        rw [htake, hsending, Option.toList_none, List.append_nil]
        exact .misses hsending hthread hwork
      | cons item rest =>
        have htake : s.service.worker.take = { s.service.worker with work := rest, sending := some item.1 } := by
          simp [DeliveryWorker.take, hsending, hwork, hstarted]
        rw [htake]
        exact .takes hstarted hsending hthread hwork
    · rename_i hthread
      exact .rests fun _ => hthread

theorem ThreadMove.outstanding_eq (h : ThreadMove s s') : s'.outstanding = s.outstanding := by
  cases h with
  | rests _ => rfl
  | publishes _ hsending => simp [outstanding, hsending]
  | turns _ _ => rfl
  | takes _ hsending _ hwork => simp [outstanding, hsending, hwork]
  | misses _ _ _ => rfl

theorem Inv.threadMove (h : Inv s) (hmove : ThreadMove s s') : Inv s' := by
  have hout := hmove.outstanding_eq
  have hnodup := h.nodup
  have hentry := h.entry
  have hbudget := h.budget
  have hsent := h.sent
  have hpublished := h.published
  rw [← hout] at hnodup hentry hbudget
  cases hmove with
  | rests _ => exact h
  | publishes hstarted hsending =>
    refine { h with
      nodup := hnodup, entry := hentry, budget := hbudget, started := fun _ => hstarted, ready := fun _ => rfl, sent := ?_,
      published := ?_ }
    · simpa [hsending] using hsent
    · simp [hpublished]
  | takes hstarted hsending _ _ =>
    refine { h with nodup := hnodup, entry := hentry, budget := hbudget, started := fun _ => hstarted, sent := ?_ }
    simpa [hsending] using hsent
  | turns _ _ | misses _ _ _ =>
    exact { h with }

/-! ## Steps -/

/-- What an action does, and what it returns, when the starts of the thread succeed. -/
inductive Move (s : Handoff) : Action → Option (DeliveryResult × Bool) → Handoff → Prop
  | busy {a : Action} {id : EventId} (hid : a.event = some id) : Move s a none s
  | submits {a : Action} {id : EventId} {number : Option Nat} {out : DeliveryResult × Bool} {service : Service}
      {pending : Dict EventId InFlight} {worker : DeliveryWorker} (hid : a.event = some id) (hpolling : s.polling = none)
      (hentered : s.service.Entered id number out pending worker)
      (hsame : Service.Same { s.service with pending, worker } service) (hnumber : ∀ c ∈ number.toList, c = s.numbers) :
      Move s a (some out) { s with
        service
        numbers := s.numbers + 1
        attached := s.attached ++ number.toList.filter service.callbacks.contains }
  | polls {p : Polling} (hpolling : s.polling.isSome = true) : Move s (.poll p) none s
  | flushes {p : Polling} {service : Service} (hpolling : s.polling = none) (hsame : s.service.Same service) :
      Move s (.poll p) none { s with polling := some p, service }
  | rests (hpolling : s.polling = none) : Move s .drain none s
  | drains {p : Polling} {item : EventId × DeliveryResult} {rest : List (EventId × DeliveryResult)}
      (hpolling : s.polling = some p) (hresults : s.service.worker.results = item :: rest) :
      Move s .drain none { s with
        service := Service.takeResult { s.service with
          worker := { s.service.worker with results := rest, budget := s.service.worker.budget + 1 } } item
        drained := s.drained ++ [item] }
  | ends {p : Polling} {service : Service} (hpolling : s.polling = some p) (hresults : s.service.worker.results = [])
      (hsettled : s.service.Settled p service) :
      Move s .drain none { s with
        ready := false
        polling := none
        service
        calls := s.calls ++ s.service.pending.entries.flatMap (InFlight.called p) }
  | waits : Move s .close none s
  | closes : Move s .close none { s with service := s.service.close }
  | thread {answer : Option DeliveryResult} {s' : Handoff} (hmove : ThreadMove s s') : Move s (.thread answer) none s'

theorem Move.of_submits {call : Service → Option Nat → (DeliveryResult × Bool) × Service} {callback : Bool}
    (hid : a.event = some id) (hcall : ∀ number, s.service.Submission id number (call s.service number)) :
    Move s a (s.submits call callback).1 (s.submits call callback).2 := by
  unfold Handoff.submits
  split
  · exact .busy hid
  · rename_i hpolling
    obtain ⟨pending, worker, hentered, hsame⟩ := hcall (if callback then some s.numbers else none)
    refine .submits hid hpolling hentered hsame ?_
    split_ifs <;> simp

theorem Move.of_step (h : Inv s) (ha : a.starts) : Move s a (step a s).1 (step a s).2 := by
  cases a with
  | record event callback recovered r =>
    refine .of_submits rfl fun number => ?_
    exact @Service.record_submission _ { event with delivery := .suppressed } _ _ _ h.roomy h.final (by simp) ha
  | daily id time text callback r =>
    refine .of_submits rfl fun number => ?_
    exact @Service.enqueue_submission _ { kind := .dailySummary, time, confirmed := false, id } _ _ _ _ h.roomy ha
  | poll p =>
    unfold Handoff.step
    dsimp only
    split
    · rename_i hpolling
      exact .polls (by rw [hpolling]; rfl)
    · rename_i hpolling
      exact .flushes hpolling (.flush ..)
  | drain =>
    unfold Handoff.step Handoff.drain
    dsimp only
    split
    · rename_i hpolling
      exact .rests hpolling
    split
    · rename_i p hpolling _ item rest hresults
      exact .drains hpolling hresults
    · rename_i p hpolling _ hresults
      exact .ends hpolling hresults (.of_entries p s.service)
  | close =>
    unfold Handoff.step
    dsimp only
    split_ifs
    · exact .closes
    · exact .waits
  | thread answer => exact .thread (.of_step s answer)

theorem Inv.move (h : Inv s) (hmove : Move s a output s') : Inv s' := by
  cases hmove with
  | submits _ _ hentered hsame _ => exact { (h.entered hentered).same hsame with }
  | flushes _ hsame => exact { h.same hsame with }
  | drains _ hresults => exact h.drains hresults
  | ends _ hresults hsettled => exact h.ends hresults hsettled _
  | closes => exact { h with stopped := rfl }
  | thread hmove => exact h.threadMove hmove
  | _ => exact h

/-- The capacity, the configuration, and whether the service is closed stay. -/
theorem Move.kept (hmove : Move s a output s') : s'.service.capacity = s.service.capacity ∧
    s'.service.configured = s.service.configured ∧ (a ≠ .close → s'.service.closed = s.service.closed) := by
  cases hmove with
  | submits _ _ _ hsame _ | flushes _ hsame => exact ⟨hsame.capacity, hsame.configured, fun _ => hsame.closed⟩
  | ends _ _ hsettled => exact ⟨hsettled.capacity, hsettled.configured, fun _ => hsettled.closed⟩
  | closes => exact ⟨rfl, rfl, fun hclose => absurd rfl hclose⟩
  | thread hmove => cases hmove <;> exact ⟨rfl, rfl, fun _ => rfl⟩
  | _ => exact ⟨rfl, rfl, fun _ => rfl⟩

/-- No call of the worker's `submit` fails. -/
theorem Move.output_ne (hmove : Move s a output s') : output ≠ some (.failed, true) := by
  cases hmove with
  | submits _ _ hentered _ _ => cases hentered <;> simp
  | _ => simp

/-! ## Callbacks -/

/-- The callbacks that wait for the outcome of an event. -/
def waiting (d : Dict EventId InFlight) (id : EventId) : List Nat :=
  match d.get? id with
  | none => []
  | some e => e.callbacks

theorem mem_callbacks {c : Nat} : c ∈ service.callbacks ↔ ∃ id, c ∈ waiting service.pending id := by
  unfold Service.callbacks waiting
  rw [List.mem_flatMap]
  constructor
  · rintro ⟨e, he, hc⟩
    obtain ⟨id, hid⟩ := Dict.mem_values_iff.mp he
    exact ⟨id, by rw [hid]; exact hc⟩
  · rintro ⟨id, hc⟩
    cases hid : service.pending.get? id with
    | none =>
      rw [hid] at hc
      cases hc
    | some e =>
      rw [hid] at hc
      exact ⟨e, Dict.mem_values_iff.mpr ⟨id, hid⟩, hc⟩

/-- Every callback waits in one entry, or was called. -/
structure Told (s : Handoff) : Prop where
  lt : ∀ id, ∀ c ∈ waiting s.service.pending id, c < s.numbers
  nodup : ∀ id, (waiting s.service.pending id).Nodup
  unique : ∀ id id' c, c ∈ waiting s.service.pending id → c ∈ waiting s.service.pending id' → id = id'
  untold : ∀ id, ∀ c ∈ waiting s.service.pending id, (c, true) ∉ s.calls
  calls_lt : ∀ x ∈ s.calls, x.1 < s.numbers
  attached : ∀ c ∈ s.attached, c ∈ s.service.callbacks ∨ (c, true) ∈ s.calls
  calls : s.calls.Pairwise fun x y => x.2 = true → y.1 ≠ x.1

theorem waiting_entered (hentered : service.Entered id number out pending worker) :
    ∃ l, (l = [] ∨ l = number.toList) ∧ ∀ k, waiting pending k = waiting service.pending k ++ if k = id then l else [] := by
  cases hentered with
  | same _ => exact ⟨[], .inl rfl, fun k => by simp⟩
  | joined hentry =>
    refine ⟨number.toList, .inr rfl, fun k => ?_⟩
    unfold waiting
    rw [Dict.get?_set]
    split_ifs with hk
    · rw [hk, hentry]
    · simp
  | admitted hnone _ _ =>
    refine ⟨number.toList, .inr rfl, fun k => ?_⟩
    unfold waiting
    rw [Dict.get?_set]
    split_ifs with hk
    · rw [hk, hnone]
      rfl
    · simp

theorem Told.init (capacity : Nat) (configured : Bool) (rows : EventId → Option DeliveryResult) :
    Told (init capacity configured rows) := by
  have hnone (id : EventId) : waiting (Handoff.init capacity configured rows).service.pending id = [] := rfl
  refine ⟨fun id => ?_, fun id => ?_, fun id => ?_, fun id => ?_, nofun, nofun, .nil⟩ <;> rw [hnone]
  · nofun
  · exact List.nodup_nil
  · nofun
  · nofun

theorem Told.congr (h : Told s) (hwaiting : ∀ id, waiting s'.service.pending id = waiting s.service.pending id)
    (hnumbers : s'.numbers = s.numbers) (hattached : s'.attached = s.attached) (hcalls : s'.calls = s.calls) : Told s' := by
  have hcallbacks (c : Nat) : c ∈ s'.service.callbacks ↔ c ∈ s.service.callbacks := by
    rw [mem_callbacks, mem_callbacks]
    simp only [hwaiting]
  obtain ⟨hlt, hnodup, hunique, huntold, hcalls_lt, hatt, hpairwise⟩ := h
  refine ⟨?_, ?_, ?_, ?_, ?_, ?_, ?_⟩
  · simpa only [hwaiting, hnumbers] using hlt
  · simpa only [hwaiting] using hnodup
  · simpa only [hwaiting] using hunique
  · simpa only [hwaiting, hcalls] using huntold
  · simpa only [hcalls, hnumbers] using hcalls_lt
  · simpa only [hattached, hcallbacks, hcalls] using hatt
  · rwa [hcalls]

theorem Told.submits (h : Told s) (hentered : s.service.Entered id number out pending worker)
    (hpending : service.pending = pending) (hnumber : ∀ c ∈ number.toList, c = s.numbers) : Told { s with
      service
      numbers := s.numbers + 1
      attached := s.attached ++ number.toList.filter service.callbacks.contains } := by
  obtain ⟨l, hl, hwaiting⟩ := waiting_entered hentered
  have hown : ∀ c ∈ l, c = s.numbers := by
    rcases hl with rfl | rfl
    · simp
    · exact hnumber
  have hnew {c : Nat} (hc : c ∈ l) : ¬c < s.numbers := by rw [hown c hc]; exact Nat.lt_irrefl _
  have hsplit (k : EventId) (c : Nat) : c ∈ waiting service.pending k ↔
      c ∈ waiting s.service.pending k ∨ k = id ∧ c ∈ l := by
    rw [hpending, hwaiting, List.mem_append]
    split_ifs with hk <;> simp [hk]
  refine ⟨?_, ?_, ?_, ?_, ?_, ?_, h.calls⟩
  · intro id c hc
    rcases (hsplit id c).mp hc with hc | ⟨-, hc⟩
    · exact Nat.lt_succ_of_lt (h.lt id c hc)
    · rw [hown c hc]
      exact Nat.lt_succ_self _
  · intro id
    dsimp only
    rw [hpending, hwaiting]
    refine (h.nodup id).append ?_ ?_
    · split_ifs
      · rcases hl with rfl | rfl
        · exact List.nodup_nil
        · exact Option.toList_nodup number
      · exact List.nodup_nil
    · intro c hc hc'
      have hmem : c ∈ l := by
        split_ifs at hc'
        · exact hc'
        · cases hc'
      exact hnew hmem (h.lt id c hc)
  · intro id id' c hc hc'
    rcases (hsplit id c).mp hc with hold | ⟨rfl, hmem⟩
    · rcases (hsplit id' c).mp hc' with hold' | ⟨-, hmem⟩
      · exact h.unique id id' c hold hold'
      · exact absurd (h.lt id c hold) (hnew hmem)
    · rcases (hsplit id' c).mp hc' with hold' | ⟨rfl, -⟩
      · exact absurd (h.lt id' c hold') (hnew hmem)
      · rfl
  · intro id c hc htold
    rcases (hsplit id c).mp hc with hold | ⟨-, hmem⟩
    · exact h.untold id c hold htold
    · exact absurd (h.calls_lt _ htold) (hnew hmem)
  · intro x hx
    exact Nat.lt_succ_of_lt (h.calls_lt x hx)
  · intro c hc
    rcases List.mem_append.mp hc with hold | hnew
    · refine (h.attached c hold).imp_left fun hmem => ?_
      obtain ⟨id, hid⟩ := mem_callbacks.mp hmem
      exact mem_callbacks.mpr ⟨id, (hsplit id c).mpr (.inl hid)⟩
    · exact .inl (by simpa using (List.mem_filter.mp hnew).2)

/-- The event's callbacks are told at the end of the `poll`. -/
def Settles (p : Polling) (d : Dict EventId InFlight) (id : EventId) : Prop :=
  ∃ e, d.get? id = some e ∧ e.result.isSome = true ∧ p.update id = .returns

theorem mem_called {x : Nat × Bool} : x ∈ d.entries.flatMap (InFlight.called p) ↔
      ∃ id, Settles p d id ∧ x.1 ∈ waiting d id ∧ x.2 = !p.raises id x.1 := by
  rw [List.mem_flatMap]
  constructor
  · rintro ⟨⟨id, e⟩, hmem, hx⟩
    have hget := Dict.get?_eq_some_iff.mpr hmem
    unfold InFlight.called at hx
    split_ifs at hx with hsettles
    · obtain ⟨c, hc, rfl⟩ := List.mem_map.mp hx
      exact ⟨id, ⟨e, hget, hsettles⟩, by rw [waiting, hget]; exact hc, rfl⟩
    · cases hx
  · rintro ⟨id, ⟨e, hget, hsettles⟩, hc, hx⟩
    rw [waiting, hget] at hc
    refine ⟨(id, e), Dict.get?_eq_some_iff.mp hget, ?_⟩
    rw [InFlight.called, if_pos hsettles]
    exact List.mem_map.mpr ⟨x.1, hc, Prod.ext rfl hx.symm⟩

theorem mem_waiting_settled (hsettled : s.service.Settled p service) (id : EventId) (c : Nat) :
    c ∈ waiting service.pending id ↔
      c ∈ waiting s.service.pending id ∧ (Settles p s.service.pending id → p.raises id c = true) := by
  unfold waiting Settles
  rw [hsettled.get]
  cases hid : s.service.pending.get? id with
  | none => simp
  | some e =>
    simp only [Option.bind_some, Service.settle, Option.some.injEq, exists_eq_left']
    by_cases hsettles : e.result.isSome = true ∧ p.update id = .returns
    · rw [if_pos hsettles]
      by_cases hfailed : e.callbacks.filter (p.raises id) = []
      · rw [if_pos hfailed]
        simp only [List.not_mem_nil, false_iff, not_and]
        intro hc hraises
        exact absurd (List.mem_filter.mpr ⟨hc, hraises hsettles⟩) (by rw [hfailed]; exact List.not_mem_nil)
      · rw [if_neg hfailed]
        simp [hsettles]
    · rw [if_neg hsettles]
      simp [hsettles]

theorem waiting_settled_sublist (hsettled : s.service.Settled p service) (id : EventId) :
    (waiting service.pending id).Sublist (waiting s.service.pending id) := by
  unfold waiting
  rw [hsettled.get]
  cases s.service.pending.get? id with
  | none => exact .slnil
  | some e =>
    simp only [Option.bind_some, Service.settle]
    split_ifs
    · exact List.nil_sublist _
    · exact List.filter_sublist
    · exact List.Sublist.refl _

theorem Told.pairwise_called (h : Told s) (p : Polling) :
    (s.service.pending.entries.flatMap (InFlight.called p)).Pairwise fun x y => x.1 ≠ y.1 := by
  rw [List.pairwise_flatMap]
  constructor
  · rintro ⟨id, e⟩ hmem
    have hnodup := h.nodup id
    rw [waiting, Dict.get?_eq_some_iff.mpr hmem] at hnodup
    unfold InFlight.called
    split_ifs
    · rw [List.pairwise_map]
      exact hnodup
    · exact .nil
  · have hkeys : s.service.pending.entries.Pairwise fun a b => a.1 ≠ b.1 := List.pairwise_map.mp s.service.pending.nodup
    refine hkeys.imp_of_mem ?_
    intro a b ha hb hne x hx y hy heq
    have hmem (a : EventId × InFlight) (ha : a ∈ s.service.pending.entries) (x : Nat × Bool)
        (hx : x ∈ InFlight.called p a) : x.1 ∈ waiting s.service.pending a.1 := by
      rw [waiting, Dict.get?_eq_some_iff.mpr ha]
      unfold InFlight.called at hx
      split_ifs at hx
      · obtain ⟨c, hc, rfl⟩ := List.mem_map.mp hx
        exact hc
      · cases hx
    exact hne (h.unique a.1 b.1 x.1 (hmem a ha x hx) (heq ▸ hmem b hb y hy))

theorem Told.ends (h : Told s) (hsettled : s.service.Settled p service) : Told { s with
      ready := false
      polling := none
      service
      calls := s.calls ++ s.service.pending.entries.flatMap (InFlight.called p) } := by
  have hwaiting := mem_waiting_settled hsettled
  have hsublist := waiting_settled_sublist hsettled
  refine ⟨?_, ?_, ?_, ?_, ?_, ?_, ?_⟩
  · intro id c hc
    exact h.lt id c ((hwaiting id c).mp hc).1
  · exact fun id => (h.nodup id).sublist (hsublist id)
  · intro id id' c hc hc'
    exact h.unique id id' c ((hwaiting id c).mp hc).1 ((hwaiting id' c).mp hc').1
  · intro id c hc htold
    obtain ⟨hold, hraises⟩ := (hwaiting id c).mp hc
    rcases List.mem_append.mp htold with htold | htold
    · exact h.untold id c hold htold
    · obtain ⟨id', hsettles, hc', hx⟩ := mem_called.mp htold
      obtain rfl := h.unique id id' c hold hc'
      simp [hraises hsettles] at hx
  · intro x hx
    rcases List.mem_append.mp hx with hx | hx
    · exact h.calls_lt x hx
    · obtain ⟨id, -, hc, -⟩ := mem_called.mp hx
      exact h.lt id x.1 hc
  · intro c hc
    rcases h.attached c hc with hmem | htold
    · obtain ⟨id, hid⟩ := mem_callbacks.mp hmem
      by_cases hreturned : Settles p s.service.pending id ∧ p.raises id c = false
      · refine .inr (List.mem_append_right _ (mem_called.mpr ⟨id, hreturned.1, hid, ?_⟩))
        rw [hreturned.2]
        rfl
      · refine .inl (mem_callbacks.mpr ⟨id, (hwaiting id c).mpr ⟨hid, fun hsettles => ?_⟩⟩)
        by_contra hraises
        exact hreturned ⟨hsettles, Bool.not_eq_true _ ▸ hraises⟩
    · exact .inr (List.mem_append_left _ htold)
  · refine List.pairwise_append.mpr ⟨h.calls, (h.pairwise_called p).imp fun hne _ => hne.symm, ?_⟩
    intro x hx y hy htrue heq
    obtain ⟨id, -, hc, -⟩ := mem_called.mp hy
    refine h.untold id y.1 hc ?_
    rwa [heq, ← htrue]

theorem Told.move (h : Told s) (hmove : Move s a output s') : Told s' := by
  cases hmove with
  | submits _ _ hentered hsame hnumber => exact h.submits hentered hsame.pending hnumber
  | flushes _ hsame => exact h.congr (fun id => by rw [hsame.pending]) rfl rfl rfl
  | @drains _ item _ _ _ =>
    refine h.congr (fun id => ?_) rfl rfl rfl
    unfold waiting Service.takeResult
    dsimp only
    rw [Dict.get?_modify]
    split_ifs with hid
    · rw [hid]
      cases s.service.pending.get? item.1 <;> rfl
    · rfl
  | ends _ _ hsettled => exact h.ends hsettled
  | closes => exact h.congr (fun _ => rfl) rfl rfl rfl
  | thread hmove => cases hmove <;> exact h.congr (fun _ => rfl) rfl rfl rfl
  | _ => exact h

/-! ## Runs -/

theorem inv_reaches (hs : Reaches step (init capacity configured rows) h s) (hstarts : ∀ e ∈ h, e.input.starts) :
    Inv s ∧ Told s ∧ s.service.capacity = capacity := by
  refine hs.invariant_of (P := fun s => Inv s ∧ Told s ∧ s.service.capacity = capacity)
    ⟨Inv.init .., Told.init .., rfl⟩ ?_ hstarts
  rintro a s ha ⟨hinv, htold, hcapacity⟩
  have hmove := Move.of_step hinv ha
  exact ⟨hinv.move hmove, htold.move hmove, hmove.kept.1.trans hcapacity⟩

theorem outputs_reaches (hs : Reaches step (init capacity configured rows) h s) (hstarts : ∀ e ∈ h, e.input.starts) :
    ∀ e ∈ h, e.output ≠ some (.failed, true) := by
  intro e he
  obtain ⟨later, earlier, rfl⟩ := List.append_of_mem he
  obtain ⟨hbefore, heq⟩ := hs.event
  obtain ⟨hinv, -, -⟩ := inv_reaches hbefore fun e' he' => hstarts e' (by simp [he'])
  rw [heq]
  exact (Move.of_step hinv (hstarts e he)).output_ne

end Handoff

/-- In every run in which the starts of the thread succeed, the deliveries outstanding are bounded by the events in flight,
no submission and no publication finds a queue full, every completion is published for an event in flight and drained once,
callbacks are called until they return, and completions that wait are announced. -/
theorem completions_exactly_once (capacity : Nat) (configured : Bool) (rows : EventId → Option DeliveryResult)
    (h : List (Event Handoff Action (Option (DeliveryResult × Bool)))) (s : Handoff)
    (hs : Reaches Handoff.step (.init capacity configured rows) h s) (hstarts : ∀ e ∈ h, e.input.starts) :
    (s.outstanding.length ≤ s.service.pending.size ∧ s.service.pending.size ≤ capacity) ∧
    (∀ e ∈ h, e.output ≠ some (.failed, true)) ∧
    (s.service.worker.sending.isSome → s.service.worker.results.length < s.service.worker.capacity) ∧
    (∀ item ∈ s.service.worker.results, ∃ e, s.service.pending.get? item.1 = some e ∧ e.result = none) ∧
    (s.sent = s.published.map Prod.fst ++ s.service.worker.sending.toList ∧
      s.published = s.drained ++ s.service.worker.results ∧ s.outstanding.Nodup) ∧
    (s.calls.Pairwise (fun x y => x.2 = true → y.1 ≠ x.1) ∧
      ∀ c ∈ s.attached, c ∈ s.service.callbacks ∧ (c, true) ∉ s.calls ∨ (c, true) ∈ s.calls) ∧
    (s.service.worker.results ≠ [] → s.ready = true) := by
  obtain ⟨hinv, htold, hcapacity⟩ := Handoff.inv_reaches hs hstarts
  refine ⟨⟨hinv.outstanding_le, hcapacity ▸ hinv.size⟩, Handoff.outputs_reaches hs hstarts, ?_, ?_,
    ⟨hinv.sent, hinv.published, hinv.nodup⟩, ⟨htold.calls, ?_⟩, hinv.ready⟩
  · intro hsending
    have hbudget := hinv.budget
    obtain ⟨id, hid⟩ := Option.isSome_iff_exists.mp hsending
    rw [hinv.capacity]
    simp [Handoff.outstanding, hid] at hbudget
    omega
  · intro item hitem
    refine (hinv.entry item.1).mp ?_
    simp [Handoff.outstanding, List.mem_map_of_mem hitem]
  · intro c hc
    by_cases hreturned : (c, true) ∈ s.calls
    · exact .inr hreturned
    · exact .inl ⟨(htold.attached c hc).resolve_right hreturned, hreturned⟩

/-- One event that is recorded, sent and told. -/
def oneDelivery : List Action :=
  [.record { kind := .humanAccessFault, time := 0, confirmed := false, id := .other 7 } true false {}, .thread none,
    .thread none, .thread (some .sent), .poll {}, .drain, .drain]

theorem completions_exactly_once_delivered :
    let run := perform Handoff.step (.init 1 true fun _ => none) oneDelivery
    (run.2.drained = [(.other 7, .sent)] ∧ run.2.calls = [(0, true)]) ∧
      run.2.published = run.2.drained ++ run.2.service.worker.results := by
  refine ⟨by decide, ?_⟩
  exact (completions_exactly_once 1 true _ _ _ (Reaches.perform ..)
    (by simp [perform, oneDelivery, Event.of, Action.starts])).2.2.2.2.1.2.1

end Sentinel.Notifications
