import Sentinel.Monitoring.RunMarker

/-!
# Proofs: the running marker

An unclean exit is notified before its marker is replaced, or counted as dropped in a full hour; no token takes two slots
and no hour has more slots than the limit.
-/

namespace Sentinel.Monitoring.RunMarker

/-! ## What a step does -/

/-- What an attempt can do before its first durable write. -/
inductive AttemptSpec (db : Db) (clock : Nat) (p : Process) : Output → Process → Prop
  /-- The process is marked, or the queue is full. -/
  | same : AttemptSpec db clock p .none p
  | free (h : ∀ previous, db.marker = some previous → previous = p.token) :
      AttemptSpec db clock p .none { p with point := .marking }
  | notified (previous : Nat) (h : db.marker = some previous) (he : previous ∈ db.events) :
      AttemptSpec db clock p .none { p with point := .marking }
  | drops (previous found : Nat) (h : db.marker = some previous) (hd : p.dropped = false) (hf : hourlyLimit ≤ found) :
      AttemptSpec db clock p (.dropped p.token previous found) { p with dropped := true, point := .marking }
  | dropped (hd : p.dropped = true) : AttemptSpec db clock p .none { p with point := .marking }
  | taken (previous : Nat) (h : db.marker = some previous) (hne : previous ≠ p.token) :
      AttemptSpec db clock p .none { p with point := .recording previous }
  | slot (previous : Nat) (h : db.marker = some previous) (hne : previous ≠ p.token)
      (ht : db.noticeTime previous = none) (hl : db.noticesWithin clock hour < hourlyLimit) :
      AttemptSpec db clock p .none { p with point := .pruning previous }

theorem attempt_spec (db : Db) (clock : Nat) (full : Bool) (p : Process) :
    AttemptSpec db clock p (attempt db clock full p).1 (attempt db clock full p).2 := by
  obtain ⟨token, marked, dropped, point⟩ := p
  unfold attempt
  cases marked with
  | true => exact .same
  | false =>
    cases hdb : db.marker with
    | none => exact .free fun previous h => nomatch hdb.symm.trans h
    | some previous =>
      simp only [Bool.false_eq_true, if_false]
      by_cases hdone : previous = token ∨ previous ∈ db.events
      · rw [if_pos hdone]
        obtain rfl | he := hdone
        · exact .free fun previous h => Option.some.inj (h.symm.trans hdb)
        · exact .notified previous hdb he
      · rw [if_neg hdone]
        have hne : previous ≠ token := fun he => hdone (.inl he)
        cases dropped with
        | true =>
          simp only [Bool.not_true, Bool.and_false, Bool.false_and, Bool.or_false, if_true, Bool.false_eq_true, if_false]
          exact .dropped rfl
        | false =>
          cases ht : db.noticeTime previous with
          | some time =>
            simp only [Option.isNone_some, Bool.false_and, Bool.or_false, Option.isSome_some, if_true,
              Bool.false_eq_true, if_false]
            cases full with
            | true => exact .same
            | false => exact .taken previous hdb hne
          | none =>
            by_cases hl : hourlyLimit ≤ db.noticesWithin clock hour
            · simp only [Option.isNone_none, Bool.not_false, Bool.and_self, hl, decide_true, Bool.or_true, if_true]
              exact .drops previous _ hdb rfl hl
            · simp only [Option.isNone_none, Bool.not_false, Bool.and_self, hl, decide_false, Bool.and_false,
                Bool.or_false, Bool.false_eq_true, if_false, Option.isSome_none]
              cases full with
              | true => exact .same
              | false => exact .slot previous hdb hne ht (not_le.mp hl)

/-- What a step can do. -/
inductive StepSpec (s : State) : Output → State → Prop
  | same : StepSpec s .none s
  | wait (time : Nat) : StepSpec s .none { s with clock := s.clock + time }
  | expire (token : Nat) : StepSpec s .none { s with db := { s.db with events := s.db.events.filter (· ≠ token) } }
  | start (hp : s.process = none) :
      StepSpec s .none { s with process := some { token := s.started }, started := s.started + 1 }
  | ended : StepSpec s .none { s with process := none }
  | cleared (p : Process) (hp : s.process = some p) (hm : s.db.marker = some p.token) :
      StepSpec s (.cleared p.token) { s with db := { s.db with marker := none }, process := none }
  | attempted (p : Process) (hp : s.process = some p) (hpt : p.point = .rest) {o : Output} {p' : Process}
      (ha : AttemptSpec s.db s.clock p o p') : StepSpec s o { s with process := some p' }
  | refused (p : Process) (hp : s.process = some p) : StepSpec s .none { s with process := some { p with point := .rest } }
  | pruned (p : Process) (previous : Nat) (hp : s.process = some p) (hpt : p.point = .pruning previous) :
      StepSpec s .none
        { s with db := s.db.prune s.clock, process := some { p with point := .inserting previous s.clock } }
  | held (p : Process) (previous time : Nat) (hp : s.process = some p) (hpt : p.point = .inserting previous time) :
      StepSpec s .none { s with process := some { p with point := .recording previous } }
  | inserted (p : Process) (previous time : Nat) (hp : s.process = some p) (hpt : p.point = .inserting previous time)
      (hnew : ∀ notice ∈ s.db.notices, notice.token ≠ previous) :
      StepSpec s (.slot previous time)
        { s with db := { s.db with notices := s.db.notices ++ [⟨previous, time⟩] },
                 process := some { p with point := .recording previous } }
  | recorded (p : Process) (previous : Nat) (events : List Nat) (hp : s.process = some p)
      (hpt : p.point = .recording previous) :
      StepSpec s .none
        { s with db := { s.db with events },
                 process := some { p with point := if previous ∈ events then .marking else .rest } }
  | marked (p : Process) (hp : s.process = some p) (hpt : p.point = .marking) :
      StepSpec s (.marked p.token)
        { s with db := { s.db with marker := some p.token }, process := some { p with marked := true, point := .rest } }

theorem step_spec (i : Input) (s : State) : StepSpec s (step i s).1 (step i s).2 := by
  obtain ⟨db, process, started, clock⟩ := s
  cases process with
  | none =>
    cases i with
    | wait time => exact .wait time
    | start => exact .start rfl
    | crash => exact .ended
    | expire token => exact .expire token
    | _ => exact .same
  | some p =>
    obtain ⟨token, marked, dropped, point⟩ := p
    cases i with
    | wait time => exact .wait time
    | start => exact .same
    | attempt full =>
      cases point with
      | rest => exact .attempted _ rfl rfl (attempt_spec ..)
      | _ => exact .same
    | prune commits =>
      cases point with
      | pruning previous =>
        cases commits with
        | true => exact .pruned _ previous rfl rfl
        | false => exact .refused _ rfl
      | _ => exact .same
    | insert commits =>
      cases point with
      | inserting previous time =>
        cases commits with
        | true =>
          simp only [step, Db.insert, if_true]
          by_cases hany : (db.notices.any fun notice => decide (notice.token = previous)) = true
          · rw [if_pos hany, if_pos hany]
            exact .held ⟨token, marked, dropped, .inserting previous time⟩ previous time rfl rfl
          · rw [if_neg hany, if_neg hany]
            refine .inserted ⟨token, marked, dropped, .inserting previous time⟩ previous time rfl rfl fun notice hn he => hany ?_
            exact List.any_eq_true.mpr ⟨notice, hn, decide_eq_true he⟩
        | false => exact .refused _ rfl
      | _ => exact .same
    | record persisted =>
      cases point with
      | recording previous =>
        cases persisted with
        | true => exact .recorded _ previous _ rfl rfl
        | false => exact .recorded _ previous db.events rfl rfl
      | _ => exact .same
    | mark commits =>
      cases point with
      | marking =>
        cases commits with
        | true => exact .marked _ rfl rfl
        | false => exact .refused _ rfl
      | _ => exact .same
    | stop commits =>
      cases point with
      | rest =>
        simp only [step, Db.clear]
        by_cases hc : (commits && marked) = true
        · rw [if_pos hc]
          by_cases hm : db.marker = some token
          · rw [if_pos hm, if_pos hm]
            exact .cleared ⟨token, marked, dropped, .rest⟩ rfl hm
          · rw [if_neg hm, if_neg hm]
            exact .ended
        · rw [if_neg hc]
          exact .ended
      | _ => exact .same
    | crash => exact .ended
    | expire token => exact .expire token

variable {token : Nat} {i : Input} {o : Output} {p p' : Process} {s s' : State} {db : Db} {e : Event State Input Output}

theorem StepSpec.marks (hspec : StepSpec s o s') (ho : o = .marked token) :
    ∃ p, s.process = some p ∧ p.point = .marking ∧ p.token = token ∧ s' =
      { s with db := { s.db with marker := some p.token }, process := some { p with marked := true, point := .rest } } := by
  subst ho
  cases hspec with
  | attempted p hp hpt ha => cases ha
  | marked p hp hpt => exact ⟨p, hp, hpt, rfl, rfl⟩

/-! ## No unclean exit is passed over -/

variable {h later mid earlier : List (Event State Input Output)}

/-- The process counted the exit as dropped in a full hour. -/
def Drops (previous token : Nat) (mid : List (Event State Input Output)) : Prop :=
  ∃ x ∈ mid, ∃ found, x.output = .dropped token previous found ∧ hourlyLimit ≤ found

/-- The exit was notified, or counted as dropped. -/
def Settled (previous token : Nat) (mid : List (Event State Input Output)) : Prop :=
  (∃ x ∈ mid, notified previous x) ∨ Drops previous token mid

theorem Drops.cons {previous : Nat} (h : Drops previous token mid) : Drops previous token (e :: mid) :=
  h.imp fun _ hx => ⟨List.mem_cons_of_mem _ hx.1, hx.2⟩

theorem Settled.cons {previous : Nat} (h : Settled previous token mid) : Settled previous token (e :: mid) :=
  h.imp (fun ⟨x, hx, hn⟩ => ⟨x, List.mem_cons_of_mem _ hx, hn⟩) Drops.cons

/-- What a later process knows of the exit whose marker it finds. -/
structure Knows (previous : Nat) (mid : List (Event State Input Output)) (p : Process) : Prop where
  marking : p.point = .marking → Settled previous p.token mid
  dropped : p.dropped = true → Drops previous p.token mid
  pruning : ∀ other, p.point = .pruning other → other = previous
  inserting : ∀ other time, p.point = .inserting other time → other = previous
  recording : ∀ other, p.point = .recording other → other = previous

/-- The marker stays until it is replaced by a process that knows of the exit. -/
structure Stands (previous : Nat) (mid : List (Event State Input Output)) (s : State) : Prop where
  marker : s.db.marker = some previous
  knows : ∀ p, s.process = some p → p.token ≠ previous → Knows previous mid p

theorem Knows.cons {previous : Nat} (h : Knows previous mid p) : Knows previous (e :: mid) p :=
  ⟨fun hm => (h.marking hm).cons, fun hd => (h.dropped hd).cons, h.pruning, h.inserting, h.recording⟩

theorem Knows.rest {previous : Nat} (h : Knows previous mid p) : Knows previous (e :: mid) { p with point := .rest } :=
  ⟨nofun, fun hd => (h.dropped hd).cons, nofun, nofun, nofun⟩

theorem AttemptSpec.knows {previous : Nat} {o : Output} (ha : AttemptSpec s.db s.clock p o p') (hm : s.db.marker = some previous)
    (hk : p.token ≠ previous → Knows previous mid p) (hne : p'.token ≠ previous) : Knows previous (⟨s, i, o, s'⟩ :: mid) p' := by
  cases ha with
  | same => exact (hk hne).cons
  | free h => exact absurd (h previous hm).symm hne
  | notified other h he =>
    cases Option.some.inj (hm.symm.trans h)
    exact ⟨fun _ => .inl ⟨_, List.mem_cons_self, .inl he⟩, fun hd => ((hk hne).dropped hd).cons, nofun, nofun, nofun⟩
  | drops other found h hd hf =>
    cases Option.some.inj (hm.symm.trans h)
    have hdrops : Drops previous p.token (⟨s, i, .dropped p.token previous found, s'⟩ :: mid) :=
      ⟨_, List.mem_cons_self, found, rfl, hf⟩
    exact ⟨fun _ => .inr hdrops, fun _ => hdrops, nofun, nofun, nofun⟩
  | dropped hd =>
    have hdrops : Drops previous p.token (⟨s, i, .none, s'⟩ :: mid) := ((hk hne).dropped hd).cons
    exact ⟨fun _ => .inr hdrops, fun _ => hdrops, nofun, nofun, nofun⟩
  | taken other h _ =>
    cases Option.some.inj (hm.symm.trans h)
    refine ⟨nofun, fun hd => ((hk hne).dropped hd).cons, nofun, nofun, fun other he => ?_⟩
    exact (Point.recording.inj he).symm
  | slot other h _ ht hl =>
    cases Option.some.inj (hm.symm.trans h)
    refine ⟨nofun, fun hd => ((hk hne).dropped hd).cons, fun other he => ?_, nofun, nofun⟩
    exact (Point.pruning.inj he).symm

theorem StepSpec.stands {previous : Nat} (hspec : StepSpec s o s') (h : Stands previous mid s)
    (hmarked : ∀ token, o ≠ .marked token) (hcleared : o ≠ .cleared previous) : Stands previous (⟨s, i, o, s'⟩ :: mid) s' := by
  obtain ⟨hm, hk⟩ := h
  cases hspec with
  | same | wait time | expire token => exact ⟨hm, fun p hp hne => (hk p hp hne).cons⟩
  | start hp =>
    refine ⟨hm, fun p he hne => ?_⟩
    cases he
    exact ⟨nofun, nofun, nofun, nofun, nofun⟩
  | ended => exact ⟨hm, nofun⟩
  | cleared p hp hm' => exact absurd (congrArg Output.cleared (Option.some.inj (hm'.symm.trans hm))) hcleared
  | attempted p hp hpt ha =>
    refine ⟨hm, fun p' he hne => ?_⟩
    cases he
    exact ha.knows hm (hk p hp) hne
  | refused p hp =>
    refine ⟨hm, fun p' he hne => ?_⟩
    cases he
    exact (hk p hp hne).rest
  | pruned p other hp hpt =>
    refine ⟨hm, fun p' he hne => ?_⟩
    cases he
    have hkn := hk p hp hne
    refine ⟨nofun, fun hd => (hkn.dropped hd).cons, nofun, fun other' time he => ?_, nofun⟩
    exact (Point.inserting.inj he).1 ▸ hkn.pruning other hpt
  | held p other time hp hpt | inserted p other time hp hpt hnew =>
    refine ⟨hm, fun p' he hne => ?_⟩
    cases he
    have hkn := hk p hp hne
    refine ⟨nofun, fun hd => (hkn.dropped hd).cons, nofun, nofun, fun other' he => ?_⟩
    exact Point.recording.inj he ▸ hkn.inserting other time hpt
  | recorded p other events hp hpt =>
    refine ⟨hm, fun p' he hne => ?_⟩
    cases he
    have hkn := hk p hp hne
    cases hkn.recording other hpt
    by_cases hmem : previous ∈ events
    · rw [if_pos hmem]
      exact ⟨fun _ => .inl ⟨_, List.mem_cons_self, .inr hmem⟩, fun hd => (hkn.dropped hd).cons, nofun, nofun, nofun⟩
    · rw [if_neg hmem]
      exact hkn.rest
  | marked p hp hpt => exact absurd rfl (hmarked p.token)

/-- Between the marker of a process and that of the next one the exit stands. -/
theorem stands {previous : Nat} (hs : Reaches RunMarker.step {} (mid ++ e :: earlier) s) (he : e.output = .marked previous)
    (hmid : ∀ x ∈ mid, (∀ token, x.output ≠ .marked token) ∧ x.output ≠ .cleared previous) : Stands previous mid s := by
  induction mid generalizing s with
  | nil =>
    cases hs with
    | next hs i =>
      obtain ⟨p, _, _, rfl, hs'⟩ := (step_spec i _).marks he
      rw [hs']
      refine ⟨rfl, fun p' he hne => ?_⟩
      cases he
      exact absurd rfl hne
  | cons x mid ih =>
    cases hs with
    | next hs i =>
      have hx := hmid _ List.mem_cons_self
      exact (step_spec i _).stands (ih hs fun x hx => hmid x (List.mem_cons_of_mem _ hx)) hx.1 hx.2

theorem settled_of_marked {previous : Nat} (hs : Reaches RunMarker.step {} (e :: (mid ++ earlier)) s) (hne : token ≠ previous)
    (he : e.output = .marked token) (hstands : Stands previous mid e.before) : Settled previous token mid := by
  cases hs with
  | next hs i =>
    obtain ⟨p, hp, hpt, rfl, _⟩ := (step_spec i _).marks he
    exact (hstands.knows p hp hne).marking hpt

/-! ## One slot for a token -/

/-- The previous run that an attempt is about. -/
def Point.previous : Point → Option Nat
  | .pruning previous => some previous
  | .inserting previous _ => some previous
  | .recording previous => some previous
  | _ => none

/-- What holds in every state of a run. -/
structure Wf (s : State) : Prop where
  /-- The marker is of a process that was started. -/
  marker : ∀ token, s.db.marker = some token → token < s.started
  process : ∀ p, s.process = some p → p.token < s.started
  /-- An attempt is about the run whose marker stands. -/
  previous : ∀ p token, s.process = some p → p.point.previous = some token → s.db.marker = some token ∧ token ≠ p.token

theorem Wf.moved (h : Wf s) (hpr : s.process = some p) (ht : p'.token = p.token)
    (hpoint : ∀ token, p'.point.previous = some token → p.point.previous = some token) (hdb : db.marker = s.db.marker) :
    Wf { s with db, process := some p' } := by
  refine ⟨hdb ▸ h.marker, fun q he => ?_, fun q token he hq => ?_⟩
  · cases he
    rw [ht]
    exact h.process p hpr
  · cases he
    rw [ht, hdb]
    exact h.previous p token hpr (hpoint token hq)

theorem StepSpec.wf (hspec : StepSpec s o s') (h : Wf s) : Wf s' := by
  cases hspec with
  | same | wait time | expire token => exact ⟨h.marker, h.process, h.previous⟩
  | start _ =>
    refine ⟨fun token he => Nat.lt_succ_of_lt (h.marker token he), fun p he => ?_, fun p token he hq => ?_⟩
    · cases he
      exact Nat.lt_succ_self _
    · cases he
      cases hq
  | ended => exact ⟨h.marker, nofun, nofun⟩
  | cleared p _ _ => exact ⟨nofun, nofun, nofun⟩
  | attempted p hpr hpt ha =>
    refine ⟨h.marker, fun q he => ?_, fun q token he hq => ?_⟩
    · cases he
      have htoken : p.token < s.started := h.process p hpr
      cases ha with
      | _ => exact htoken
    · cases he
      cases ha with
      | same =>
        rw [hpt] at hq
        cases hq
      | taken previous hmarker hne | slot previous hmarker hne ht hl =>
        cases hq
        exact ⟨hmarker, hne⟩
      | _ => cases hq
  | refused p hpr => exact h.moved hpr rfl nofun rfl
  | pruned p previous hpr hpt | held p previous time hpr hpt | inserted p previous time hpr hpt hnew =>
    exact h.moved hpr rfl (hpt ▸ fun _ h => h) rfl
  | recorded p previous events hpr hpt =>
    refine h.moved hpr rfl (fun token h => ?_) rfl
    dsimp only at h
    split at h <;> cases h
  | marked p hpr hpt =>
    refine ⟨fun token he => ?_, fun q he => ?_, fun q token he hq => ?_⟩
    · cases he
      exact h.process p hpr
    · cases he
      exact h.process p hpr
    · cases he
      cases hq

theorem wf_init : Wf {} := ⟨nofun, nofun, nofun⟩

theorem wf (hs : Reaches RunMarker.step {} h s) : Wf s := hs.invariant wf_init fun i _ => (step_spec i _).wf

/-- The token has taken its slot: its process is gone, and as long as its marker stands, so does its notice. -/
structure Spent (token : Nat) (s : State) : Prop where
  started : token < s.started
  gone : ∀ p, s.process = some p → p.token ≠ token
  noticed : s.db.marker = some token → ∃ notice ∈ s.db.notices, notice.token = token
  taken : ∀ p, s.process = some p → p.point ≠ .pruning token ∧ ∀ time, p.point ≠ .inserting token time

theorem noticeTime_eq_none (h : db.noticeTime token = none) : ∀ notice ∈ db.notices, notice.token ≠ token := by
  unfold Db.noticeTime at h
  rw [Option.map_eq_none_iff, List.find?_eq_none] at h
  exact fun notice hn he => h notice hn (decide_eq_true he)

/-- The process goes on, and its attempt does not take a slot for the token. -/
theorem Spent.moved (h : Spent token s) (hpr : s.process = some p) (ht : p'.token = p.token)
    (hpruning : p'.point ≠ .pruning token) (hinserting : ∀ time, p'.point ≠ .inserting token time)
    (hdb : db.marker = some token → ∃ notice ∈ db.notices, notice.token = token) :
    Spent token { s with db, process := some p' } := by
  refine ⟨h.started, fun q he => ?_, hdb, fun q he => ?_⟩
  · cases he
    rw [ht]
    exact h.gone p hpr
  · cases he
    exact ⟨hpruning, hinserting⟩

theorem StepSpec.spent (hspec : StepSpec s o s') (h : Spent token s) (hw : Wf s) :
    Spent token s' ∧ ∀ time, o ≠ .slot token time := by
  cases hspec with
  | same | wait time | expire other => exact ⟨{ h with }, nofun⟩
  | start _ =>
    refine ⟨⟨Nat.lt_succ_of_lt h.started, fun p he => ?_, h.noticed, fun p he => ?_⟩, nofun⟩
    · cases he
      exact h.started.ne'
    · cases he
      exact ⟨nofun, nofun⟩
  | ended => exact ⟨⟨h.started, nofun, h.noticed, nofun⟩, nofun⟩
  | cleared p hpr hm => exact ⟨⟨h.started, nofun, nofun, nofun⟩, nofun⟩
  | attempted p hpr hpt ha =>
    cases ha with
    | same => exact ⟨h.moved hpr rfl (h.taken p hpr).1 (h.taken p hpr).2 h.noticed, nofun⟩
    | slot previous hmarker hne hnone hl =>
      have hother : previous ≠ token := by
        rintro rfl
        obtain ⟨notice, hmem, he⟩ := h.noticed hmarker
        exact noticeTime_eq_none hnone notice hmem he
      exact ⟨h.moved hpr rfl (fun he => hother (Point.pruning.inj he)) nofun h.noticed, nofun⟩
    | _ => exact ⟨h.moved hpr rfl nofun nofun h.noticed, nofun⟩
  | refused p hpr | held p previous time hpr hpt => exact ⟨h.moved hpr rfl nofun nofun h.noticed, nofun⟩
  | pruned p previous hpr hpt =>
    have hother : previous ≠ token := fun he => (h.taken p hpr).1 (he ▸ hpt)
    have hmarker := (hw.previous p previous hpr (hpt ▸ rfl)).1
    refine ⟨h.moved hpr rfl nofun (fun time he => hother (Point.inserting.inj he).1) fun hm => ?_, nofun⟩
    exact absurd (Option.some.inj (hmarker.symm.trans hm)) hother
  | inserted p previous time hpr hpt hnew =>
    have hother : previous ≠ token := fun he => (h.taken p hpr).2 time (he ▸ hpt)
    refine ⟨h.moved hpr rfl nofun nofun fun hm => ?_, fun time' he => hother (Output.slot.inj he).1⟩
    obtain ⟨notice, hmem, he⟩ := h.noticed hm
    exact ⟨notice, List.mem_append_left _ hmem, he⟩
  | recorded p previous events hpr hpt =>
    refine ⟨h.moved hpr rfl ?_ (fun time => ?_) h.noticed, nofun⟩
    · dsimp only
      split <;> nofun
    · dsimp only
      split <;> nofun
  | marked p hpr hpt =>
    exact ⟨h.moved hpr rfl nofun nofun fun hm => absurd (Option.some.inj hm) (h.gone p hpr), nofun⟩

theorem StepSpec.spends {time : Nat} (hspec : StepSpec s o s') (hw : Wf s) (ho : o = .slot token time) : Spent token s' := by
  subst ho
  cases hspec with
  | attempted p hp hpt ha => cases ha
  | inserted p _ _ hp hpt hnew =>
    obtain ⟨hm, hne⟩ := hw.previous p token hp (hpt ▸ rfl)
    refine ⟨hw.marker token hm, fun q he => ?_, fun _ => ?_, fun q he => ?_⟩
    · cases he
      exact hne.symm
    · exact ⟨_, List.mem_append_right _ (List.mem_singleton_self _), rfl⟩
    · cases he
      exact ⟨nofun, nofun⟩

theorem takes_iff : takes token e = true ↔ ∃ time, e.output = .slot token time := by
  unfold takes
  split
  · rename_i t time he
    rw [he, decide_eq_true_iff]
    exact ⟨fun h => ⟨time, h ▸ rfl⟩, fun ⟨_, h⟩ => (Output.slot.inj h).1⟩
  · rename_i hne
    exact ⟨nofun, fun ⟨time, he⟩ => absurd he (hne token time)⟩

theorem takes_once (token : Nat) (hs : Reaches RunMarker.step {} h s) :
    h.countP (takes token) = 0 ∨ h.countP (takes token) = 1 ∧ Spent token s := by
  induction hs with
  | start => exact .inl rfl
  | next hs i ih =>
    rename_i h s
    rw [List.countP_cons]
    by_cases ht : takes token (Event.of step s i) = true
    · rw [if_pos ht]
      obtain ⟨time, ht⟩ := takes_iff.mp ht
      obtain h0 | ⟨_, hspent⟩ := ih
      · exact .inr ⟨by rw [h0], (step_spec i s).spends (wf hs) ht⟩
      · exact absurd ht (((step_spec i s).spent hspent (wf hs)).2 time)
    · rw [if_neg ht]
      exact ih.imp_right fun ⟨h1, hspent⟩ => ⟨h1, ((step_spec i s).spent hspent (wf hs)).1⟩

/-! ## The limit of an hour -/

/-- The event takes a slot at the time or later. -/
def takesSince (since : Nat) (e : Event State Input Output) : Bool :=
  match e.output with
  | .slot _ time => since ≤ time
  | _ => false

/-- What is known of the slots that were taken. -/
structure Paced (h : List (Event State Input Output)) (s : State) : Prop where
  past : ∀ notice ∈ s.db.notices, notice.time ≤ s.clock
  kept : ∀ since, s.clock < since + hour → h.countP (takesSince since) ≤ s.db.notices.countP fun n => since ≤ n.time
  /-- A process that is to take a slot has found room. -/
  pruning : ∀ p previous, s.process = some p → p.point = .pruning previous →
    ∀ since, s.clock < since + hour → h.countP (takesSince since) < hourlyLimit
  inserting : ∀ p previous time, s.process = some p → p.point = .inserting previous time → time ≤ s.clock ∧
    ∀ since, time < since + hour → h.countP (takesSince since) < hourlyLimit
  within : ∀ since, h.countP (takesWithin since) ≤ hourlyLimit

theorem takesWithin_le_takesSince (h : List (Event State Input Output)) (since : Nat) :
    h.countP (takesWithin since) ≤ h.countP (takesSince since) := by
  refine List.countP_mono_left fun e _ he => ?_
  unfold takesWithin at he
  unfold takesSince
  cases ho : e.output with
  | slot token time =>
    rw [ho] at he
    exact decide_eq_true (of_decide_eq_true he).1
  | _ =>
    rw [ho] at he
    cases he

/-- The notices since a time of the last hour are among those that are counted. -/
theorem since_le_noticesWithin {clock since : Nat} (hpast : ∀ notice ∈ db.notices, notice.time ≤ clock)
    (hs : clock < since + hour) : (db.notices.countP fun n => decide (since ≤ n.time)) ≤ db.noticesWithin clock hour := by
  refine List.countP_mono_left fun notice hn ht => ?_
  have hle := hpast notice hn
  have ht := of_decide_eq_true ht
  refine decide_eq_true ⟨by omega, ?_⟩
  have hpos : 0 < hour := by decide
  omega

/-- A step that takes no slot does not count. -/
theorem Paced.cons (hp : Paced h s) (he : ∀ token time, e.output ≠ .slot token time) : Paced (e :: h) s := by
  have hnone (since : Nat) : takesSince since e = false ∧ takesWithin since e = false := by
    unfold takesSince takesWithin
    cases ho : e.output with
    | slot token time => exact absurd ho (he token time)
    | _ => exact ⟨rfl, rfl⟩
  obtain ⟨hpast, hkept, hpruning, hinserting, hwithin⟩ := hp
  refine ⟨hpast, ?_, ?_, ?_, ?_⟩ <;> simpa [List.countP_cons, hnone]

/-- A process that goes on neither changes the notices nor begins to take a slot. -/
theorem Paced.moved (hp : Paced h s) (hn : s'.db.notices = s.db.notices) (hc : s'.clock = s.clock)
    (hs' : s'.process = some p') (hpr : ∀ previous, p'.point ≠ .pruning previous)
    (hin : ∀ previous time, p'.point ≠ .inserting previous time) : Paced h s' := by
  refine ⟨?_, ?_, fun q previous hq hpt => ?_, fun q previous time hq hpt => ?_, hp.within⟩
  · rw [hn, hc]
    exact hp.past
  · rw [hn, hc]
    exact hp.kept
  · cases hs'.symm.trans hq
    exact absurd hpt (hpr previous)
  · cases hs'.symm.trans hq
    exact absurd hpt (hin previous time)

theorem countP_prune {clock since : Nat} (hpast : ∀ notice ∈ db.notices, notice.time ≤ clock) (hs : clock < since + hour) :
    ((db.prune clock).notices.countP fun n => decide (since ≤ n.time)) =
      db.notices.countP fun n => decide (since ≤ n.time) := by
  show (db.notices.filter _).countP _ = _
  rw [List.countP_filter]
  refine List.countP_congr fun notice hn => ?_
  have hle := hpast notice hn
  have hkeep : hour ≤ keep := by decide
  rw [Bool.and_eq_true, decide_eq_true_iff, decide_eq_true_iff]
  constructor
  · exact fun h => h.1
  · intro ht
    refine ⟨ht, ?_⟩
    omega

theorem StepSpec.paced (hspec : StepSpec s o s') (hp : Paced h s) : Paced (⟨s, i, o, s'⟩ :: h) s' := by
  cases hspec with
  | same => exact hp.cons nofun
  | wait time =>
    have hle : s.clock ≤ s.clock + time := Nat.le_add_right ..
    refine .cons ⟨fun notice hm => (hp.past notice hm).trans hle, fun since hs => hp.kept since (hle.trans_lt hs),
      fun p previous hpr hpt since hs => hp.pruning p previous hpr hpt since (hle.trans_lt hs),
      fun p previous time hpr hpt => ?_, hp.within⟩ nofun
    obtain ⟨hpast, hroom⟩ := hp.inserting p previous time hpr hpt
    exact ⟨hpast.trans hle, hroom⟩
  | expire token => exact .cons { hp with } nofun
  | ended | cleared p hpr hm => exact .cons { hp with pruning := nofun, inserting := nofun } nofun
  | attempted p hpr hpt ha =>
    cases ha with
    | same => exact .cons (hp.moved rfl rfl rfl (hpt ▸ nofun) (hpt ▸ nofun)) nofun
    | slot previous hmarker hne hnone hl =>
      refine .cons { hp with pruning := fun q other _ _ since hs => ?_, inserting := fun q other time he hq => ?_ } nofun
      · -- The count of the attempt covers every interval that a slot of the last hour falls into.
        exact (hp.kept since hs).trans_lt ((since_le_noticesWithin hp.past hs).trans_lt hl)
      · cases he
        cases hq
    | _ => exact .cons (hp.moved rfl rfl rfl nofun nofun) nofun
  | pruned p previous hpr hpt =>
    refine .cons ⟨fun notice hm => hp.past notice (List.mem_of_mem_filter hm), fun since hs => ?_, fun q other he hq => ?_,
      fun q other time he hq => ?_, hp.within⟩ nofun
    · exact (hp.kept since hs).trans_eq (countP_prune hp.past hs).symm
    · cases he
      cases hq
    · cases he
      obtain ⟨rfl, rfl⟩ := Point.inserting.inj hq
      exact ⟨le_rfl, hp.pruning p _ hpr hpt⟩
  | inserted p previous time hpr hpt hnew =>
    obtain ⟨hle, hroom⟩ := hp.inserting p previous time hpr hpt
    refine ⟨fun notice hm => ?_, fun since hs => ?_, fun q other he hq => ?_, fun q other time he hq => ?_, fun since => ?_⟩
    · obtain hm | hm := List.mem_append.mp hm
      · exact hp.past notice hm
      · rw [List.mem_singleton.mp hm]
        exact hle
    · rw [List.countP_cons, List.countP_append, List.countP_singleton]
      exact Nat.add_le_add_right (hp.kept since hs) _
    · cases he
      cases hq
    · cases he
      cases hq
    · rw [List.countP_cons]
      split_ifs with hin
      · exact (takesWithin_le_takesSince h since).trans_lt (hroom since (of_decide_eq_true hin).2)
      · exact hp.within since
  | recorded p previous events hpr hpt =>
    refine .cons (hp.moved rfl rfl rfl (fun previous => ?_) fun previous time => ?_) nofun
    · dsimp only
      split <;> nofun
    · dsimp only
      split <;> nofun
  | start | refused | held | marked => exact .cons (hp.moved rfl rfl rfl nofun nofun) nofun

theorem paced (hs : Reaches RunMarker.step {} h s) : Paced h s := by
  induction hs with
  | start => exact ⟨nofun, fun _ _ => le_rfl, nofun, nofun, fun _ => Nat.zero_le _⟩
  | next hs i ih => exact (step_spec i _).paced ih

/-! ## Main result -/

/-- A process replaces the marker of a run that did not end with its deletion only after that exit was notified, or after
it found the hour full and counted the exit as dropped; no token takes two slots; and no hour has more slots than the
limit. -/
theorem unclean_exit_settled (hs : Reaches RunMarker.step {} h s) :
    (∀ later e mid e' earlier token previous, h = later ++ e :: (mid ++ e' :: earlier) → e.output = .marked token →
      e'.output = .marked previous → token ≠ previous →
      (∀ x ∈ mid, (∀ other, x.output ≠ .marked other) ∧ x.output ≠ .cleared previous) →
      (∃ x ∈ mid, notified previous x) ∨
        ∃ x ∈ mid, ∃ found, x.output = .dropped token previous found ∧ hourlyLimit ≤ found) ∧
    (∀ token, h.countP (takes token) ≤ 1) ∧
    ∀ since, h.countP (takesWithin since) ≤ hourlyLimit := by
  refine ⟨?_, fun token => ?_, (paced hs).within⟩
  · rintro later e mid e' earlier token previous rfl he he' hne hmid
    obtain ⟨s', hs'⟩ := hs.of_append
    exact settled_of_marked hs' hne he (stands hs'.of_cons he' hmid)
  · obtain h0 | ⟨h1, _⟩ := takes_once token hs
    · exact h0.le.trans (Nat.zero_le _)
    · exact h1.le

/-- Two processes die one after the other, and the third marks. -/
def crashLoop : List Input :=
  [.start, .attempt false, .mark true, .crash,
    .start, .attempt false, .prune true, .crash,
    .start, .attempt false, .prune true, .insert true, .record false,
    .wait 10, .attempt false, .record true, .mark true]

theorem unclean_exit_settled_crashLoop :
    (perform RunMarker.step {} crashLoop).2.db.marker = some 2 ∧
      ∀ since, (perform RunMarker.step {} crashLoop).1.countP (takesWithin since) ≤ hourlyLimit :=
  ⟨by decide, (unclean_exit_settled (.perform _ _ crashLoop)).2.2⟩

end Sentinel.Monitoring.RunMarker
