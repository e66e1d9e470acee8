import Sentinel.Detection.Scheduler

/-!
# Fairness of the scheduler

A call that selects a source moves it to the end of the order. A source that is ready at every call is passed over only for one
that stands before it, so every selection of another brings it one place forward; nothing else moves it back.
-/

namespace Sentinel.Detection.Scheduler

variable {s s' : State} {i : Input} {object : Nat}

/-! ## What a step does to the order and the evaluations -/

/-- What a step does to the sources in order, the number of objects, the flag and the evaluations. -/
inductive Effect (s : State) (i : Input) : State → Prop
  | quiet (s' : State) (hsources : s'.sources = s.sources) (hcreated : s'.created = s.created) (hrunning : s'.running = s.running)
      (hevaluations : s'.evaluations = s.evaluations) (hselection : selection s i = none) : Effect s i s'
  | registers (s' : State) (sourceId : Nat) (hnew : s.find sourceId = none)
      (hsources : s'.sources = s.sources ++ [(sourceId, s.created)]) (hcreated : s'.created = s.created + 1)
      (hrunning : s'.running = s.running) (hevaluations : s'.evaluations = s.evaluations)
      (hselection : selection s i = none) : Effect s i s'
  | unregisters (s' : State) (sourceId object : Nat) (hfind : s.find sourceId = some object)
      (hsources : s'.sources = s.others sourceId) (hcreated : s'.created = s.created) (hrunning : s'.running = s.running)
      (hevaluations : s'.evaluations = s.evaluations) (hselection : selection s i = none) : Effect s i s'
  | selects (s' : State) (now sourceId object : Nat) (p : Pending) (hinput : i = .runOne (some now)) (hidle : s.running = false)
      (hselect : (s.readClock now).select now = some (sourceId, object, p))
      (hsources : s'.sources = s.others sourceId ++ [(sourceId, object)]) (hcreated : s'.created = s.created)
      (hevaluations : s'.running = false ∧ s'.evaluations = s.evaluations ∨
        ∃ r, s'.running = true ∧ s'.evaluations = s.evaluations ++ [r])
      (hselection : selection s i = some object) : Effect s i s'
  | finishes (s' : State) (thread : Nat) (hthread : thread < s.evaluations.length) (hsources : s'.sources = s.sources)
      (hcreated : s'.created = s.created) (hrunning : s'.running = false)
      (hevaluations : s'.evaluations = s.evaluations.eraseIdx thread)
      (hselection : selection s i = none) : Effect s i s'

theorem step_effect (s : State) (i : Input) : Effect s i (step i s).2 := by
  cases i with
  | register sourceId detector policy =>
    simp only [step]
    split_ifs with hrefused
    · exact .quiet _ rfl rfl rfl rfl rfl
    · simp only [Bool.or_eq_true, not_or, Bool.not_eq_true, Option.isSome_eq_false_iff, Option.isNone_iff_eq_none] at hrefused
      exact .registers _ sourceId hrefused.1.1 rfl rfl rfl rfl rfl
  | offer frame quality clock | snapshot sourceId clock =>
    cases clock with
    | none => exact .quiet _ rfl rfl rfl rfl rfl
    | some now =>
      simp only [step]
      split <;> exact .quiet _ rfl rfl rfl rfl rfl
  | unregister sourceId =>
    simp only [step]
    split
    next => exact .quiet _ rfl rfl rfl rfl rfl
    next object hfind => exact .unregisters _ sourceId object hfind rfl rfl rfl rfl rfl
  | invalidate sourceId reason =>
    simp only [step]
    split
    · split <;> exact .quiet _ rfl rfl rfl rfl rfl
    · exact .quiet _ rfl rfl rfl rfl rfl
  | restoreCadence sourceId =>
    simp only [step]
    split <;> exact .quiet _ rfl rfl rfl rfl rfl
  | acknowledgeRecovery sourceId =>
    simp only [step]
    split
    · exact .quiet _ rfl rfl rfl rfl rfl
    · split_ifs <;> exact .quiet _ rfl rfl rfl rfl rfl
  | runOne clock =>
    cases clock with
    | none => exact .quiet _ rfl rfl rfl rfl rfl
    | some now =>
      have hselection : selection s (.runOne (some now)) =
          if s.running then none else ((s.readClock now).select now).map fun selected => selected.2.1 := rfl
      simp only [step, runOne]
      by_cases hrunning : s.running = true
      · rw [if_pos hrunning] at hselection
        have hrunning' : (s.readClock now).running = true := hrunning
        rw [if_pos hrunning']
        exact .quiet _ rfl rfl rfl rfl hselection
      · rw [if_neg hrunning] at hselection
        have hrunning' : ¬(s.readClock now).running = true := hrunning
        rw [if_neg hrunning']
        cases hselect : (s.readClock now).select now with
        | none =>
          rw [hselect] at hselection
          exact .quiet _ rfl rfl rfl rfl hselection
        | some selected =>
          obtain ⟨sourceId, object, p⟩ := selected
          rw [hselect] at hselection
          rw [Bool.not_eq_true] at hrunning
          dsimp only
          split_ifs
          · exact .selects _ now sourceId object p rfl hrunning hselect rfl rfl (.inl ⟨hrunning, rfl⟩) hselection
          · exact .selects _ now sourceId object p rfl hrunning hselect rfl rfl (.inl ⟨hrunning, rfl⟩) hselection
          · exact .selects _ now sourceId object p rfl hrunning hselect rfl rfl (.inr ⟨_, rfl, rfl⟩) hselection
  | finish thread answer clock =>
    simp only [step]
    cases hthread : s.evaluations[thread]? with
    | none => exact .quiet _ rfl rfl rfl rfl rfl
    | some r =>
      have hlt := (List.getElem?_eq_some_iff.1 hthread).1
      cases answer with
      | returns result | raises => cases clock <;> exact .finishes _ thread hlt rfl rfl rfl rfl rfl
      | exits => exact .finishes _ thread hlt rfl rfl rfl rfl rfl

/-! ## The order of the sources -/

variable {sourceId now : Nat} {l₁ l₂ : List (Nat × Nat)}

/-- The sources have different identifiers and objects, and at most one evaluation runs, with the flag set. -/
structure Ordered (s : State) : Prop where
  keys : (s.sources.map Prod.fst).Nodup
  objects : (s.sources.map Prod.snd).Nodup
  created : ∀ e ∈ s.sources, e.2 < s.created
  evaluations : s.evaluations.length = if s.running then 1 else 0

theorem find_split (hfind : s.find sourceId = some object) : ∃ l₁ l₂, s.sources = l₁ ++ (sourceId, object) :: l₂ := by
  obtain ⟨e, he, rfl⟩ := Option.map_eq_some_iff.1 hfind
  obtain ⟨hid, l₁, l₂, hsplit, -⟩ := List.find?_eq_some_iff_append.1 he
  refine ⟨l₁, l₂, ?_⟩
  rw [hsplit, ← of_decide_eq_true hid]

theorem find_none_iff : s.find sourceId = none ↔ sourceId ∉ s.sources.map Prod.fst := by
  simp only [State.find, Option.map_eq_none_iff, List.find?_eq_none, decide_eq_true_eq, List.mem_map]
  constructor
  · rintro h ⟨e, he, heq⟩
    exact h e he heq
  · intro h e he heq
    exact h ⟨e, he, heq⟩

theorem others_split (hkeys : (s.sources.map Prod.fst).Nodup) (hsplit : s.sources = l₁ ++ (sourceId, object) :: l₂) :
    s.others sourceId = l₁ ++ l₂ := by
  rw [hsplit, List.map_append, List.map_cons, List.nodup_middle, List.nodup_cons, ← List.map_append] at hkeys
  have hall : ∀ e ∈ l₁ ++ l₂, decide (e.1 ≠ sourceId) = true := by
    intro e he
    rw [decide_eq_true_eq]
    intro heq
    exact hkeys.1 (List.mem_map.2 ⟨e, he, heq⟩)
  rw [State.others, hsplit, List.filter_append, List.filter_cons_of_neg (by simp), ← List.filter_append]
  exact List.filter_eq_self.2 hall

theorem select_of_regress (h : (now : Int) < s.lastClock) : (s.readClock now).select now = none := by
  refine List.findSome?_eq_none_iff.2 ?_
  intro e he
  have hregistered : s.registered e.2 = true := List.any_eq_true.2 ⟨e, he, decide_eq_true rfl⟩
  have hpending : ((s.readClock now).objects e.2).pending = none := by
    simp only [State.readClock, if_pos h, hregistered, if_true]
    rfl
  rw [hpending]
  rfl

theorem select_split {p : Pending} (hselect : (s.readClock now).select now = some (sourceId, object, p)) :
    ∃ l₁ l₂, s.sources = l₁ ++ (sourceId, object) :: l₂ ∧ ∀ e ∈ l₁, ¬Ready s e.2 now := by
  have hclock : ¬(now : Int) < s.lastClock := by
    intro hback
    rw [select_of_regress hback] at hselect
    cases hselect
  have hobjects : (s.readClock now).objects = s.objects := by
    simp only [State.readClock, if_neg hclock]
  obtain ⟨l₁, e, l₂, hsplit, hfound, hnone⟩ := List.findSome?_eq_some_iff.1 hselect
  rw [hobjects] at hfound hnone
  have hsplit : s.sources = l₁ ++ e :: l₂ := hsplit
  refine ⟨l₁, l₂, ?_, ?_⟩
  · obtain ⟨p', -, hdue⟩ := Option.bind_eq_some_iff.1 hfound
    split_ifs at hdue
    obtain ⟨rfl, rfl, -⟩ : e.1 = sourceId ∧ e.2 = object ∧ p' = p := by simpa using hdue
    exact hsplit
  · intro e he hready
    obtain ⟨p, hp⟩ := Option.isSome_iff_exists.1 hready.pending
    have := hnone e he
    rw [hp, Option.bind_some, if_pos hready.due] at this
    cases this

theorem Ordered.init (maximumSources : Nat) : Ordered (State.init maximumSources) where
  keys := List.nodup_nil
  objects := List.nodup_nil
  created := nofun
  evaluations := rfl

theorem Ordered.of_perm {sources : List (Nat × Nat)} (h : Ordered s) (hsub : sources.Subperm s.sources)
    (hsources : s'.sources = sources) (hcreated : s'.created = s.created)
    (hevaluations : s'.evaluations.length = if s'.running then 1 else 0) : Ordered s' := by
  obtain ⟨l, hperm, hsublist⟩ := hsub
  subst hsources
  refine ⟨?_, ?_, ?_, hevaluations⟩
  · exact ((hperm.map _).nodup_iff).1 (h.keys.sublist (hsublist.map _))
  · exact ((hperm.map _).nodup_iff).1 (h.objects.sublist (hsublist.map _))
  · intro e he
    rw [hcreated]
    exact h.created e (hsublist.mem (hperm.mem_iff.2 he))

theorem Ordered.step (h : Ordered s) (i : Input) : Ordered (step i s).2 := by
  have heffect := step_effect s i
  generalize (Scheduler.step i s).2 = s' at heffect
  cases heffect with
  | quiet hsources hcreated hrunning hevaluations =>
    exact h.of_perm (List.Subperm.refl _) hsources hcreated (by rw [hevaluations, hrunning]; exact h.evaluations)
  | registers sourceId hnew hsources hcreated hrunning hevaluations =>
    rw [find_none_iff] at hnew
    have hfresh : s.created ∉ s.sources.map Prod.snd := by
      intro hmem
      obtain ⟨e, he, heq⟩ := List.mem_map.1 hmem
      have := h.created e he
      omega
    refine ⟨?_, ?_, ?_, by rw [hevaluations, hrunning]; exact h.evaluations⟩
    · rw [hsources, List.map_append, List.nodup_append_comm]
      exact List.nodup_cons.2 ⟨hnew, h.keys⟩
    · rw [hsources, List.map_append, List.nodup_append_comm]
      exact List.nodup_cons.2 ⟨hfresh, h.objects⟩
    · intro e he
      rw [hsources, List.mem_append, List.mem_singleton] at he
      rw [hcreated]
      rcases he with he | rfl
      · exact (h.created e he).trans (Nat.lt_succ_self _)
      · exact Nat.lt_succ_self _
  | unregisters sourceId object hfind hsources hcreated hrunning hevaluations =>
    exact h.of_perm List.filter_sublist.subperm hsources hcreated (by rw [hevaluations, hrunning]; exact h.evaluations)
  | selects now sourceId object p hinput hidle hselect hsources hcreated hevaluations =>
    have hone := h.evaluations
    rw [hidle, if_neg (by decide)] at hone
    refine h.of_perm ?_ hsources hcreated ?_
    · obtain ⟨l₁, l₂, hsplit, -⟩ := select_split hselect
      rw [others_split h.keys hsplit, hsplit]
      exact ((List.perm_append_singleton _ _).trans List.perm_middle.symm).subperm
    · rcases hevaluations with ⟨hrunning, hevaluations⟩ | ⟨r, hrunning, hevaluations⟩
      · rw [hevaluations, hrunning]
        exact hone
      · rw [hevaluations, hrunning, List.length_append, hone]
        rfl
  | finishes thread hthread hsources hcreated hrunning hevaluations =>
    refine h.of_perm (List.Subperm.refl _) hsources hcreated ?_
    have hone : s.evaluations.length ≤ 1 := by
      rw [h.evaluations]
      split_ifs <;> omega
    rw [hevaluations, hrunning, List.length_eraseIdx_of_lt hthread, if_neg (by decide)]
    omega

/-! ## The place of a source -/

theorem registered_iff : s.registered object = true ↔ object ∈ s.sources.map Prod.snd := by
  simp [State.registered]

theorem idxOf_remove {l₁ l₂ : List Nat} {a b : Nat} (hne : a ≠ b) :
    (l₁ ++ l₂).idxOf a + (if a ∈ l₁ then 0 else 1) = (l₁ ++ b :: l₂).idxOf a := by
  rw [List.idxOf_append, List.idxOf_append]
  split_ifs with h
  · rfl
  · rw [List.idxOf_cons_ne _ hne.symm]
    omega

/-- A step that selects nothing leaves a source its place or moves it forward, and a selection of another moves a ready source
forward. -/
theorem position_step (h : Ordered s) (hobject : object < s.created) (i : Input)
    (hready : ∀ now, i = .runOne (some now) → Ready s object now) :
    selection s i = none ∧ ((step i s).2.registered object = true →
      s.registered object = true ∧ (step i s).2.position object ≤ s.position object) ∨
    selection s i = some object ∨
    ∃ other, selection s i = some other ∧ s.registered object = true ∧ (step i s).2.position object + 1 ≤ s.position object := by
  have heffect := step_effect s i
  generalize (Scheduler.step i s).2 = s' at heffect
  simp only [registered_iff]
  unfold State.position
  cases heffect with
  | quiet hsources _ _ _ hselection | finishes _ _ hsources _ _ _ hselection =>
    rw [hsources]
    exact .inl ⟨hselection, fun hafter => ⟨hafter, le_rfl⟩⟩
  | registers sourceId _ hsources _ _ _ hselection =>
    refine .inl ⟨hselection, fun hafter => ?_⟩
    rw [hsources, List.map_append, List.mem_append] at hafter
    have hmem : object ∈ s.sources.map Prod.snd := by
      refine hafter.resolve_right ?_
      simp only [List.map_cons, List.map_nil, List.mem_singleton]
      omega
    refine ⟨hmem, ?_⟩
    rw [hsources, List.map_append, List.idxOf_append, if_pos hmem]
  | unregisters sourceId other hfind hsources _ _ _ hselection =>
    refine .inl ⟨hselection, fun hafter => ?_⟩
    obtain ⟨l₁, l₂, hsplit⟩ := find_split hfind
    rw [hsources, others_split h.keys hsplit, List.map_append] at hafter ⊢
    have hne : object ≠ other := by
      rintro rfl
      have hnodup := h.objects
      rw [hsplit, List.map_append, List.map_cons, List.nodup_middle, List.nodup_cons] at hnodup
      exact hnodup.1 hafter
    have hplace := @idxOf_remove (l₁.map Prod.snd) (l₂.map Prod.snd) object other hne
    simp only [hsplit, List.map_append, List.map_cons]
    refine ⟨?_, by omega⟩
    rcases List.mem_append.1 hafter with hmem | hmem
    · exact List.mem_append_left _ hmem
    · exact List.mem_append_right _ (List.mem_cons_of_mem _ hmem)
  | selects now sourceId other p hinput _ hselect hsources _ _ hselection =>
    obtain ⟨l₁, l₂, hsplit, hbefore⟩ := select_split hselect
    have hready := hready now hinput
    have hmem := registered_iff.1 hready.registered
    right
    by_cases heq : object = other
    · exact .inl (heq ▸ hselection)
    · refine .inr ⟨other, hselection, hmem, ?_⟩
      -- the ready source cannot stand before the selected one
      have hnot : object ∉ l₁.map Prod.snd := by
        intro hmem
        obtain ⟨e, he, rfl⟩ := List.mem_map.1 hmem
        exact hbefore e he hready
      rw [hsplit, List.map_append, List.map_cons] at hmem
      have hrest : object ∈ l₁.map Prod.snd ++ l₂.map Prod.snd := by
        rcases List.mem_append.1 hmem with hmem | hmem
        · exact absurd hmem hnot
        · exact List.mem_append_right _ ((List.mem_cons.1 hmem).resolve_left heq)
      have hplace := @idxOf_remove (l₁.map Prod.snd) (l₂.map Prod.snd) object other heq
      rw [if_neg hnot] at hplace
      simp only [hsources, others_split h.keys hsplit, hsplit, List.map_append, List.map_cons]
      rw [List.idxOf_append, if_pos hrest]
      omega

/-! ## Runs -/

theorem selections_cons (e : SchedulerEvent) (h : List SchedulerEvent) :
    selections (e :: h) = selections h ++ (selection e.before e.input).toList := by
  rw [selections, List.reverse_cons, List.filterMap_append, selections, List.filterMap_cons]
  cases selection e.before e.input <;> rfl

theorem mem_take_append {a n : Nat} {l l' : List Nat} (h : a ∈ l.take n) : a ∈ (l ++ l').take n := by
  rw [List.take_append]
  exact List.mem_append_left _ h

theorem created_le (s : State) (i : Input) : s.created ≤ (step i s).2.created := by
  cases step_effect s i with
  | quiet _ hcreated => exact hcreated.ge
  | registers _ _ _ hcreated =>
    rw [hcreated]
    exact Nat.le_succ _
  | unregisters _ _ _ _ hcreated | selects _ _ _ _ _ _ _ _ hcreated | finishes _ _ _ hcreated => exact hcreated.ge

/-- What is kept while a ready source waits: it was selected in time, or its place and the selections so far are within the
place it had. -/
structure Waits (n object : Nat) (later : List SchedulerEvent) (s : State) : Prop where
  ordered : Ordered s
  created : object < s.created
  waits : object ∈ (selections later).take n ∨
    (selections later).length < n ∧ (s.registered object = true → s.position object + (selections later).length ≤ n)

theorem Waits.next {n : Nat} {later : List SchedulerEvent} (h : Waits n object later s) (i : Input)
    (hready : ∀ now, i = .runOne (some now) → Ready s object now) : Waits n object (Event.of step s i :: later) (step i s).2 := by
  refine ⟨h.ordered.step i, h.created.trans_le (created_le s i), ?_⟩
  have hselections : selections (Event.of step s i :: later) = selections later ++ (selection s i).toList := selections_cons _ _
  rw [hselections, List.length_append]
  rcases h.waits with hmem | ⟨hlength, hplace⟩
  · exact .inl (mem_take_append hmem)
  · rcases position_step h.ordered h.created i hready with ⟨hnone, hmoves⟩ | hself | ⟨other, hother, hbefore, hle⟩
    · rw [hnone]
      refine .inr ⟨hlength, fun hafter => ?_⟩
      obtain ⟨hbefore, hle⟩ := hmoves hafter
      exact (Nat.add_le_add_right hle _).trans (hplace hbefore)
    · left
      rw [hself, Option.toList_some, List.take_append, List.mem_append]
      right
      rw [List.take_of_length_le (by rw [List.length_singleton]; omega)]
      exact List.mem_singleton_self _
    · have hplace := hplace hbefore
      have hpos : 1 ≤ (step i s).2.position object := Nat.le_add_left 1 _
      rw [hother, Option.toList_some, List.length_singleton]
      exact .inr ⟨by omega, fun _ => by omega⟩

/-- In every state at most one detector evaluates a frame. And from any moment on, a source that is registered with a pending
frame and due at every call of `run_one` is among the first selections, as many as its place in the order at that moment, which
is at most the number of sources. -/
theorem scheduler_fair (maximumSources : Nat) (earlier : List SchedulerEvent) (moment : State)
    (hmoment : Reaches step (State.init maximumSources) earlier moment) :
    moment.evaluations.length ≤ 1 ∧
    ∀ (later : List SchedulerEvent) (s : State) (object : Nat), Reaches step moment later s → moment.registered object = true →
      (∀ e ∈ later, ∀ now, e.input = .runOne (some now) → Ready e.before object now) →
      moment.position object ≤ moment.sources.length ∧
      (moment.position object ≤ (selections later).length → object ∈ (selections later).take (moment.position object)) := by
  have hordered : Ordered moment := hmoment.invariant (.init maximumSources) fun i s hs => hs.step i
  refine ⟨?_, ?_⟩
  · rw [hordered.evaluations]
    split_ifs <;> omega
  · intro later s object hs hregistered hready
    rw [registered_iff] at hregistered
    have hplace : moment.position object ≤ moment.sources.length := by
      have := List.idxOf_lt_length_iff.2 hregistered
      rw [List.length_map] at this
      exact this
    have hwaits : Waits (moment.position object) object later s := by
      induction hs with
      | start =>
        obtain ⟨e, he, heq⟩ := List.mem_map.1 hregistered
        exact ⟨hordered, heq ▸ hordered.created e he, .inr ⟨Nat.succ_pos _, fun _ => le_rfl⟩⟩
      | next hs i ih =>
        refine (ih fun e he => hready e (List.mem_cons_of_mem _ he)).next i ?_
        intro now hinput
        exact hready _ List.mem_cons_self now hinput
    exact ⟨hplace, fun henough => hwaits.waits.resolve_right fun h => absurd h.1 (not_lt.2 henough)⟩

/-- The inputs that register two sources and give each a frame. -/
def twoSources : List Input :=
  let policy : SourcePolicy := ⟨1, 1, 100, 100, 100, 1, by decide, by decide⟩
  [.register 7 0 policy, .register 8 1 policy, .offer ⟨7, 0, 0, 1, 1, 1, [0], rfl⟩ .sufficient (some 10),
    .offer ⟨8, 0, 0, 1, 1, 1, [0], rfl⟩ .sufficient (some 10)]

/-- The second of two sources is selected by the second call. -/
theorem scheduler_fair_second :
    let moment := (perform step (State.init 2) twoSources).2
    let first := (step (.runOne (some 10)) moment).2
    let idle := (step (.finish 0 .raises (some 11)) first).2
    1 ∈ (selections [Event.of step idle (.runOne (some 12)), Event.of step first (.finish 0 .raises (some 11)),
      Event.of step moment (.runOne (some 10))]).take 2 := by
  intro moment first idle
  have hmoment : Ready moment 1 10 := ⟨by decide, by decide, by decide⟩
  have hidle : Ready idle 1 12 := ⟨by decide, by decide, by decide⟩
  have hready : ∀ e ∈ [Event.of step idle (.runOne (some 12)), Event.of step first (.finish 0 .raises (some 11)),
      Event.of step moment (.runOne (some 10))], ∀ now, e.input = .runOne (some now) → Ready e.before 1 now := by
    intro e he now hinput
    simp only [List.mem_cons, List.not_mem_nil, or_false] at he
    rcases he with rfl | rfl | rfl
    · cases hinput
      exact hidle
    · cases hinput
    · cases hinput
      exact hmoment
  have hfair := (scheduler_fair 2 _ moment (Reaches.perform step (State.init 2) twoSources)).2 _ _ 1
    (((Reaches.start.next (.runOne (some 10))).next (.finish 0 .raises (some 11))).next (.runOne (some 12))) (by decide) hready
  exact hfair.2 (by decide)

end Sentinel.Detection.Scheduler
