import Sentinel.Lib.Proofs.DictProofs
import Sentinel.Notifications.Alerts

/-!
# Proofs: one external notification per critical event

Once `DeliveryWorker.submit` was called for an event, the event is in flight or has a row: `poll` removes it
only after its outcome is written. Either stops every later submission, the first by itself and the second
through the lookup of the stored outcome.
-/

namespace Sentinel.Notifications

open Sentinel.Presence (Fate Time Observation Kind)

/-! ## The service -/

namespace Service

variable {s : Service} {id : EventId} {event : NotificationEvent} {fate : Fate} {p : Polling}

/-- The event is in flight or has a row. -/
def Held (id : EventId) (s : Service) : Prop := (s.pending.get? id).isSome ∨ (s.rows id).isSome

/-- Every event in flight stands under its own identity. -/
def Keyed (s : Service) : Prop := ∀ k entry, s.pending.get? k = some entry → entry.event.id = k

theorem localSink_spec (s : Service) (fate : Fate) (event : NotificationEvent) :
    (s.localSink fate event).2.pending = s.pending ∧
      (∀ id, (s.rows id).isSome → ((s.localSink fate event).2.rows id).isSome) ∧
      ((s.localSink fate event).1 = true → ((s.localSink fate event).2.rows event.id).isSome) := by
  have hrows : ∀ id, (s.rows id).isSome →
      (Function.update s.rows event.id (some event.delivery) id).isSome := by
    intro id h
    rw [Function.update_apply]
    split_ifs
    · rfl
    · exact h
  cases fate with
  | returns => exact ⟨rfl, hrows, fun _ => by simp [localSink]⟩
  | refused => exact ⟨rfl, fun _ h => h, fun h => by cases h⟩
  | raises => exact ⟨rfl, hrows, fun h => by cases h⟩

/-- What no step of the service undoes. -/
structure Keeps (s s' : Service) : Prop where
  keyed : Keyed s → Keyed s'
  held : ∀ id, Keyed s → Held id s → Held id s'

theorem Keeps.refl (s : Service) : Keeps s s := ⟨fun h => h, fun _ _ h => h⟩

variable {s' s : Service}

theorem Keeps.trans {s'' : Service} (h : Keeps s s') (h' : Keeps s' s'') : Keeps s s'' :=
  ⟨fun hk => h'.keyed (h.keyed hk), fun id hk hid => h'.held id (h.keyed hk) (h.held id hk hid)⟩

theorem Keeps.of_eq (hpending : s'.pending = s.pending) (hrows : s'.rows = s.rows) : Keeps s s' := by
  refine ⟨fun hk => ?_, fun id _ hid => ?_⟩
  · unfold Keyed
    rw [hpending]
    exact hk
  · unfold Held
    rw [hpending, hrows]
    exact hid

theorem Keeps.worker (h : Keeps s s') (worker : DeliveryWorker) : Keeps s { s' with worker := worker } :=
  h.trans (.of_eq rfl rfl)

theorem Keeps.localSink (s : Service) (fate : Fate) (event : NotificationEvent) :
    Keeps s (s.localSink fate event).2 := by
  obtain ⟨hpending, hrows, -⟩ := s.localSink_spec fate event
  refine ⟨fun hk => ?_, fun id _ hid => ?_⟩
  · unfold Keyed
    rw [hpending]
    exact hk
  · unfold Held
    rw [hpending]
    exact hid.imp_right (hrows id)

theorem Keeps.set {entry : InFlight} (h : entry.event.id = id) :
    Keeps s { s with pending := s.pending.set id entry } := by
  refine ⟨fun hk k v hv => ?_, fun id' _ hid => ?_⟩
  · rw [Dict.get?_set] at hv
    split_ifs at hv with heq
    · rw [← Option.some.inj hv, h, heq]
    · exact hk k v hv
  · refine hid.imp_left fun hsome => ?_
    rw [Dict.get?_set]
    split_ifs
    · rfl
    · exact hsome

theorem Keeps.modify {f : InFlight → InFlight} (hf : ∀ entry, (f entry).event = entry.event) :
    Keeps s { s with pending := s.pending.modify id f } := by
  refine ⟨fun hk k v hv => ?_, fun id' _ hid => ?_⟩
  · rw [Dict.get?_modify] at hv
    split_ifs at hv with heq
    · obtain ⟨entry, hentry, rfl⟩ := Option.map_eq_some_iff.mp hv
      rw [hf, heq]
      exact hk id entry hentry
    · exact hk k v hv
  · refine hid.imp_left fun hsome => ?_
    rw [Dict.get?_modify]
    split_ifs with heq
    · rw [Option.isSome_map, ← heq]
      exact hsome
    · exact hsome

theorem Keeps.erase (h : (s.rows id).isSome) : Keeps s { s with pending := s.pending.erase id } := by
  refine ⟨fun hk k v hv => ?_, fun id' _ hid => ?_⟩
  · rw [Dict.get?_erase] at hv
    split_ifs at hv
    exact hk k v hv
  · by_cases heq : id' = id
    · rw [heq]
      exact .inr h
    · refine hid.imp_left fun hsome => ?_
      rw [Dict.get?_erase, if_neg heq]
      exact hsome

theorem Keeps.foldl {α : Type} {f : Service → α → Service} {l : List α} (s : Service)
    (hf : ∀ s, ∀ a ∈ l, Keeps s (f s a)) : Keeps s (l.foldl f s) :=
  List.foldlRecOn l f (Keeps.refl s) fun s' h a ha => h.trans (hf s' a ha)

theorem Keeps.retain (s : Service) (event : NotificationEvent) : Keeps s (s.retain event).2 := by
  unfold Service.retain
  split_ifs
  · exact .of_eq rfl rfl
  · exact .refl s

theorem Keeps.flushOne (s : Service) (item : EventId × NotificationEvent) : Keeps s (s.flushOne p item) := by
  have h := Keeps.localSink s (p.flush item.1) item.2
  unfold Service.flushOne
  dsimp only
  split_ifs
  · exact h.trans (.of_eq rfl rfl)
  · exact h

theorem Keeps.pollOne {item : EventId × InFlight} (s : Service) (hitem : item.2.event.id = item.1) :
    Keeps s (s.pollOne p item) := by
  unfold Service.pollOne
  split
  · exact .refl s
  · rename_i result _
    have h := Keeps.localSink s (p.update item.1) { item.2.event with delivery := result }
    obtain ⟨-, -, hwritten⟩ := s.localSink_spec (p.update item.1) { item.2.event with delivery := result }
    generalize s.localSink (p.update item.1) { item.2.event with delivery := result } = sunk at *
    obtain ⟨written, s1⟩ := sunk
    dsimp only at h hwritten ⊢
    split_ifs with hsink hfailed
    · exact h
    · exact h.trans (.set hitem)
    · exact h.trans (.erase (hitem ▸ hwritten (by simpa using hsink)))

theorem Keeps.poll (p : Polling) (s : Service) (hk : Keyed s) : Keeps s (s.poll p) := by
  unfold Service.poll
  have hflush : Keeps s (s.unpersisted.entries.foldl (Service.flushOne p) s) :=
    .foldl s fun s' item _ => .flushOne s' item
  generalize s.unpersisted.entries.foldl (Service.flushOne p) s = s1 at *
  have hresults : Keeps s (s1.worker.results.foldl takeResult { s1 with worker := s1.worker.drained }) := by
    refine (hflush.worker _).trans (.foldl _ fun s' item _ => ?_)
    exact .modify fun _ => rfl
  dsimp only
  generalize s1.worker.results.foldl takeResult { s1 with worker := s1.worker.drained } = s2 at *
  refine hresults.trans (.foldl s2 fun s' item hitem => .pollOne s' ?_)
  exact hresults.keyed hk item.1 item.2 (Dict.get?_eq_some_iff.mpr hitem)

/-- What a call that may submit does: it keeps what is held, and submits only an event that is not in
flight and is held afterwards. -/
structure Calls (id : EventId) (submitted : Bool) (s s' : Service) : Prop where
  keeps : Keeps s s'
  fresh : submitted = true → s.pending.get? id = none ∧ Held id s'

theorem Calls.silent (h : Keeps s s') : Calls id false s s' := ⟨h, fun hf => by cases hf⟩

theorem enqueue_calls {text : String} {callback : Option Nat} {retains : Bool} {r : Recording} (hk : Keyed s) :
    Calls event.id (s.enqueue event text callback retains r).1.2 s
      (s.enqueue event text callback retains r).2 := by
  unfold enqueue
  split
  · rename_i entry hentry
    split_ifs
    · exact .silent (.set (hk event.id entry hentry))
    · exact .silent (.refl s)
  · rename_i hnone
    dsimp only
    generalize (if (!s.configured) = true then DeliveryResult.disabled
      else if s.closed = true ∨ s.capacity ≤ s.pending.size then .failed else .pending) = result
    have hsink := Keeps.localSink s r.write { event with delivery := result }
    generalize s.localSink r.write { event with delivery := result } = sunk at *
    obtain ⟨written, s1⟩ := sunk
    dsimp only at hsink ⊢
    have hset : Keeps s { s1 with pending := s1.pending.set event.id ⟨{ event with delivery := result },
        callback.toList, none⟩ } := hsink.trans (.set rfl)
    split_ifs with hresult hwritten hretains hsubmitted
    · exact .silent hsink
    · exact .silent (hsink.trans (.retain ..))
    · exact .silent hsink
    · exact ⟨hset.worker _, fun _ => ⟨hnone, .inl (by simp)⟩⟩
    · have hmodify : ∀ worker, Keeps s { s1 with
          pending := (s1.pending.set event.id ⟨{ event with delivery := result }, callback.toList, none⟩).modify
            event.id fun e => { e with result := some .failed }
          worker := worker } :=
        fun worker => (hset.worker worker).trans (.modify fun _ => rfl)
      have hpoll := Keeps.poll r.polling _ ((hmodify (s1.worker.submit event.id text r.starts).2).keyed hk)
      refine ⟨(hmodify _).trans hpoll, fun _ => ⟨hnone, hpoll.held _ ((hmodify _).keyed hk) (.inl ?_)⟩⟩
      rw [Dict.get?_modify, if_pos rfl, Dict.get?_set_self]
      rfl

theorem record_calls (event : NotificationEvent) (callback : Option Nat) (recovered : Bool) (r : Recording)
    (hk : Keyed s) :
    Calls event.id (s.record event callback recovered r).1.2 s (s.record event callback recovered r).2 := by
  unfold record
  split
  · rename_i prior _
    have hsink := Keeps.localSink s r.write prior
    generalize s.localSink r.write prior = sunk at *
    obtain ⟨written, s1⟩ := sunk
    dsimp only at hsink ⊢
    split_ifs
    · exact .silent (hsink.trans (.of_eq rfl rfl))
    · exact .silent hsink
    · exact .silent (.refl s)
  · split_ifs
    · exact enqueue_calls hk
    · have hsink := Keeps.localSink s r.write event
      generalize s.localSink r.write event = sunk at *
      obtain ⟨written, s1⟩ := sunk
      dsimp only at hsink ⊢
      cases written with
      | true => exact .silent hsink
      | false => exact .silent (hsink.trans (.retain ..))

theorem Keeps.join {kind : NotificationKind} {claim : Nat} (hk : Keyed s) :
    Keeps s (s.join id kind claim).2 := by
  unfold Service.join
  split
  · exact .refl s
  · rename_i entry hentry
    split_ifs
    · exact .refl s
    · exact .set (hk id entry hentry)

end Service

/-! ## The adapter and the drain -/

variable {n' : Service}

section Port

open Service

variable {u : Setup} {n : Service} {o : Observation} {kind : NotificationKind} {claim : Nat}
  {requeued : Bool} {lookup : Lookup} {r : Recording} {id : UUID}

/-- A call for a critical event submits it only where it is not in flight and, unless the Owner requeued it,
the lookup of its outcome found nothing. -/
structure Delivers (u : Setup) (id : UUID) (requeued : Bool) (lookup : Lookup) (submitted : Bool)
    (n n' : Service) : Prop where
  calls : Calls (.critical id) submitted n n'
  looked : submitted = true → requeued = false → u.outcomes = true → lookup = .answers →
    n.rows (.critical id) = none

theorem Delivers.silent (h : Keeps n n') : Delivers u id requeued lookup false n n' :=
  ⟨.silent h, fun hf => by cases hf⟩

theorem join_false (h : (n.join (.critical id) kind claim).1 = false) :
    (n.join (.critical id) kind claim).2 = n := by
  unfold Service.join at h ⊢
  split
  · rfl
  · rename_i entry hentry
    rw [hentry] at h
    dsimp only at h ⊢
    split_ifs at h ⊢
    rfl

theorem deliver_delivers (hk : Keyed n) :
    Delivers u o.identifier requeued lookup (deliver u n o kind claim requeued lookup r).1.2 n
      (deliver u n o kind claim requeued lookup r).2 := by
  have hjoin : Keeps n (n.join (.critical o.identifier) kind claim).2 := .join hk
  have hcalls := record_calls ⟨kind, o.receivedAt, true, .critical o.identifier, .suppressed⟩ (some claim)
    false r hk
  unfold deliver
  dsimp only
  by_cases hjoined : (n.join (.critical o.identifier) kind claim).1 = true
  · rw [if_pos hjoined]
    exact .silent hjoin
  · rw [if_neg hjoined, join_false (by simpa using hjoined)]
    by_cases haccept : (!n.canAccept (.critical o.identifier)) = true
    · rw [if_pos haccept]
      split_ifs
      · exact .silent (.refl n)
      · split <;> exact .silent (.refl n)
    · rw [if_neg haccept]
      by_cases hrequeued : requeued = true
      · rw [if_pos hrequeued]
        exact ⟨hcalls, fun _ hf => by simp [hrequeued] at hf⟩
      · rw [if_neg hrequeued]
        cases hstored : stored u n o.identifier lookup with
        | none => exact .silent (.refl n)
        | some outcome =>
          cases outcome with
          | some result => exact .silent (.refl n)
          | none =>
            refine ⟨hcalls, fun _ _ houtcomes hlookup => ?_⟩
            simpa [stored, houtcomes, hlookup] using hstored

theorem drainItem_delivers {inFlight : List UUID} {items : List (UUID × NotificationKind)} {time : Time}
    (hk : Keyed n) :
    Delivers u id false lookup (drainItem u n inFlight id kind items time lookup r).1 n
      (drainItem u n inFlight id kind items time lookup r).2.1 := by
  have hcalls := record_calls ⟨kind, time, true, .critical id, .suppressed⟩ none false r hk
  unfold drainItem
  dsimp only
  by_cases hflight : n.inFlight (.critical id) = true
  · rw [if_pos hflight]
    exact .silent (.refl n)
  · rw [if_neg hflight]
    cases hstored : (stored u n id lookup).getD none with
    | some result => exact .silent (.refl n)
    | none =>
      have hlooked : u.outcomes = true → lookup = .answers → n.rows (.critical id) = none := by
        intro houtcomes hlookup
        simpa [stored, houtcomes, hlookup] using hstored
      dsimp only
      split_ifs
      · exact .silent (.refl n)
      · exact ⟨hcalls, fun _ _ => hlooked⟩
      · exact ⟨hcalls, fun _ _ => hlooked⟩
      · exact ⟨hcalls, fun _ _ => hlooked⟩

end Port

/-! ## The steps -/

section Steps

open Service

variable {u : Setup} {s s' : Sys} {act : Act} {out : Output} {n : Service} {id : UUID}

/-- What one step does for the event: the service keeps it, and submits it only where it was not held. -/
structure Moves (u : Setup) (id : UUID) (e : Step) : Prop where
  keyed : ∀ n ∈ e.after.service, Keyed n
  held : (∃ n ∈ e.before.service, Held (.critical id) n) → ∃ n ∈ e.after.service, Held (.critical id) n
  submitted : submits id e = true → ∃ n ∈ e.after.service, Held (.critical id) n
  fresh : submits id e = true → u.outcomes = true → (lookupRaises id e = true → rowWritten id e.before = false) →
    deliversRequeued id e = false → ¬∃ n ∈ e.before.service, Held (.critical id) n

variable {e : Step}

theorem kept_of_keeps (hbefore : e.before.service = some n) (hafter : e.after.service = some n') (hk : Keyed n) (h : Keeps n n') :
    (∀ n ∈ e.after.service, Keyed n) ∧
      ((∃ n ∈ e.before.service, Held (.critical id) n) → ∃ n ∈ e.after.service, Held (.critical id) n) := by
  rw [hbefore, hafter]
  constructor
  · rintro m ⟨⟩
    exact h.keyed hk
  · rintro ⟨m, ⟨⟩, hheld⟩
    exact ⟨n', rfl, h.held _ hk hheld⟩

/-- A step that submits nothing for the event and takes the service from `n` to `n'`. -/
theorem moves_of_keeps (hbefore : e.before.service = some n) (hafter : e.after.service = some n') (hk : Keyed n) (h : Keeps n n')
    (hsilent : submits id e = false) : Moves u id e := by
  obtain ⟨hkeyed, hheld⟩ := kept_of_keeps hbefore hafter hk h
  exact ⟨hkeyed, hheld, fun hf => by simp [hsilent] at hf, fun hf => by simp [hsilent] at hf⟩

theorem moves_of_eq (hk : ∀ n ∈ e.before.service, Keyed n) (h : e.after.service = e.before.service)
    (hsilent : submits id e = false) : Moves u id e := by
  refine ⟨h ▸ hk, ?_, fun hf => by simp [hsilent] at hf, fun hf => by simp [hsilent] at hf⟩
  rw [h]
  exact fun hheld => hheld

theorem moves_of_delivers {id' : UUID} {requeued submitted : Bool} {lookup : Lookup} (hbefore : e.before.service = some n)
    (hafter : e.after.service = some n') (hout : e.output = submission (.critical id') submitted) (hk : Keyed n)
    (hd : Delivers u id' requeued lookup submitted n n') (hraises : lookup = .raises → id' = id → lookupRaises id e = true)
    (hrequeued : requeued = true → id' = id → deliversRequeued id e = true) : Moves u id e := by
  have hsubmits : submits id e = true → id' = id ∧ submitted = true := by
    intro hs
    simp only [submits, hout, submission, beq_iff_eq] at hs
    split_ifs at hs with hsub
    simp only [Option.some.injEq, EventId.critical.injEq] at hs
    exact ⟨hs, hsub⟩
  obtain ⟨hkeyed, hheld⟩ := kept_of_keeps hbefore hafter hk hd.calls.keeps
  refine ⟨hkeyed, hheld, fun hs => ?_, ?_⟩
  · obtain ⟨rfl, hsub⟩ := hsubmits hs
    exact ⟨n', hafter, (hd.calls.fresh hsub).2⟩
  · rintro hs houtcomes hlook hreq ⟨m, hm, hheld⟩
    obtain rfl := Option.some.inj (hbefore.symm.trans hm)
    obtain ⟨rfl, hsub⟩ := hsubmits hs
    have hreq' : requeued = false := by
      by_contra hne
      rw [hrequeued (by simpa using hne) rfl] at hreq
      cases hreq
    rcases hheld with hpending | hrow
    · rw [(hd.calls.fresh hsub).1] at hpending
      cases hpending
    · cases lookup with
      | answers =>
        rw [hd.looked hsub hreq' houtcomes rfl] at hrow
        cases hrow
      | raises =>
        have hnone := hlook (hraises rfl rfl)
        rw [rowWritten, hbefore, Option.any_some, hrow] at hnone
        cases hnone

theorem ownerStep_moves (hs : s.service = some n) (hkeyed : ∀ n ∈ s.service, Keyed n) :
    Moves u id ⟨s, act, (ownerStep u act s n).1, (ownerStep u act s n).2⟩ := by
  have hk := hkeyed n hs
  unfold ownerStep
  split
  · rename_i o claim requeued lookup r
    split
    · split_ifs with hconfirmed
      · refine moves_of_delivers hs rfl rfl hk (deliver_delivers hk) ?_ ?_
        · rintro rfl rfl
          simp [lookupRaises]
        · rintro rfl rfl
          simp [deliversRequeued]
      · exact moves_of_eq hkeyed rfl rfl
    · exact moves_of_eq hkeyed rfl rfl
  · split_ifs <;> exact moves_of_eq hkeyed rfl rfl
  · exact moves_of_keeps hs rfl hk (.poll _ n hk) rfl
  · split_ifs
    · exact moves_of_eq hkeyed rfl rfl
    · refine moves_of_keeps hs rfl hk (record_calls _ _ _ _ hk).keeps ?_
      simp only [submits, submission]
      split_ifs <;> rfl
  · refine moves_of_keeps hs rfl hk (enqueue_calls hk).keeps ?_
    simp only [submits, submission]
    split_ifs <;> rfl
  · exact moves_of_keeps hs rfl hk (.of_eq rfl rfl) rfl
  · exact moves_of_eq hkeyed rfl rfl

theorem drainStep_moves (hs : s.service = some n) (hkeyed : ∀ n ∈ s.service, Keyed n) :
    Moves u id ⟨s, act, (drainStep u act s n).1, (drainStep u act s n).2⟩ := by
  unfold drainStep
  split
  · exact moves_of_eq hkeyed rfl rfl
  · rename_i time lookup r id' kind items hdrain
    refine moves_of_delivers hs rfl rfl (hkeyed n hs) (drainItem_delivers (hkeyed n hs)) ?_ (by simp)
    rintro rfl rfl
    simp [lookupRaises, hdrain]
  · exact moves_of_eq hkeyed rfl rfl
  · exact moves_of_eq hkeyed rfl rfl

theorem step_moves (u : Setup) (id : UUID) (act : Act) (hkeyed : ∀ n ∈ s.service, Keyed n) :
    Moves u id (Event.of (step u) s act) := by
  have hmap : ∀ (f : DeliveryWorker → DeliveryWorker) (a : Act),
      Moves u id ⟨s, a, none, { s with service := s.service.map fun n => { n with worker := f n.worker } }⟩ := by
    intro f a
    cases hs : s.service with
    | none => exact moves_of_eq hkeyed hs.symm rfl
    | some n => exact moves_of_keeps hs rfl (hkeyed n hs) (.of_eq rfl rfl) rfl
  unfold Event.of step
  split
  · split_ifs with hnone
    · have hnone : s.service = none := by simpa using hnone
      refine ⟨fun n hn k entry hentry => ?_, ?_, fun hf => by simp [submits] at hf, fun hf => by simp [submits] at hf⟩
      · obtain rfl := Option.some.inj hn
        cases hentry
      · rintro ⟨n, hn, -⟩
        rw [hnone] at hn
        cases hn
    · exact moves_of_eq hkeyed rfl rfl
  · split <;> exact moves_of_eq hkeyed rfl rfl
  · split <;> exact moves_of_eq hkeyed rfl rfl
  · split <;> exact moves_of_eq hkeyed rfl rfl
  · exact moves_of_eq hkeyed rfl rfl
  · exact moves_of_eq hkeyed rfl rfl
  · exact hmap DeliveryWorker.take .take
  · rename_i answer
    exact hmap (fun w => w.publish answer) (.publish answer)
  · split
    · exact moves_of_eq hkeyed rfl rfl
    · rename_i n hs
      split_ifs
      · exact ownerStep_moves hs hkeyed
      · exact drainStep_moves hs hkeyed

end Steps

/-! ## Over a run -/

section Runs

open Service

variable {u : Setup} {h : List Step} {s : Sys} {id : UUID}

/-- One external notification per critical event: whatever the recorder hands over, the dispatcher
delivers, escalates or prunes, and the alert step drains, `DeliveryWorker.submit` is called at most once for
an event whose stored outcome can be looked up once it has a row, and that no Owner requeues. -/
theorem one_submission_per_critical_event (hs : Reaches (step u) {} h s) (houtcomes : u.outcomes = true)
    (hlookup : ∀ e ∈ h, lookupRaises id e = true → rowWritten id e.before = false)
    (hrequeue : ∀ e ∈ h, deliversRequeued id e = false) : h.countP (submits id) ≤ 1 := by
  -- after the first submission the event is held, which rules out a second one
  suffices hinv : (∀ n ∈ s.service, Keyed n) ∧ h.countP (submits id) ≤ 1 ∧
      (h.countP (submits id) = 1 → ∃ n ∈ s.service, Held (.critical id) n) from hinv.2.1
  induction hs with
  | start => simp
  | @next h s hs act ih =>
    obtain ⟨hkeyed, hcount, hheld⟩ := ih (fun e he => hlookup e (List.mem_cons_of_mem _ he))
      (fun e he => hrequeue e (List.mem_cons_of_mem _ he))
    have hm := step_moves u id act hkeyed
    refine ⟨hm.keyed, ?_⟩
    rw [List.countP_cons]
    split_ifs with hsubmits
    · have hfresh := hm.fresh hsubmits houtcomes (hlookup _ List.mem_cons_self) (hrequeue _ List.mem_cons_self)
      have hzero : h.countP (submits id) = 0 := by
        by_contra hne
        exact hfresh (hheld (by omega))
      exact ⟨by omega, fun _ => hm.submitted hsubmits⟩
    · exact ⟨hcount, fun hone => hm.held (hheld hone)⟩

/-- A process with Slack and small bounds. -/
def smallProcess : Setup :=
  { queueCapacity := 2, slack := true, armed := true, outcomes := true, capacity := 2, watched := 2,
    remembered := 2 }

/-- A confirmed movement, as the dispatcher reads it. -/
def movement : Observation :=
  { kind := .serverMovement, occurredAt := 0, receivedAt := 5, confirmed := true, identifier := 1 }

/-- Storage refuses the movement and its row, and the alert is attempted; storage recovers, the movement is
recorded and escalated, the dispatcher delivers it while it is in flight and again once its outcome is
stored, and a retry is refused. -/
theorem one_submission_per_critical_event_recovered :
    let run := perform (step smallProcess) {} [.create fun _ => none, .refused 1 .serverMovement, .drain,
      .drainItem 6 .raises { write := .refused }, .drainMark, .drainItem 6 .raises {}, .recorded 1 .serverMovement true,
      .deliver movement 1 false .answers {}, .take, .publish (some .sent), .poll {}, .escalated 1 .serverMovement,
      .drain, .drainItem 7 .answers {}, .deliver movement 2 false .answers {}, .refused 1 .serverMovement]
    run.1.countP (submits 1) = 1 ∧ run.1.countP (submits 1) ≤ 1 :=
  ⟨by decide +kernel, one_submission_per_critical_event (.perform _ _ _) rfl (by decide +kernel)
    (by decide +kernel)⟩

end Runs

end Sentinel.Notifications
