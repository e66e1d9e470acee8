import Sentinel.Ring.Chain
import Sentinel.Ring.Proofs.MethodProofs

/-!
# Every run is a chain of permitted changes

The triple of `program`, the step lemma for one call and the run lemma for a history of calls.
-/

namespace Sentinel.Ring

open Program

variable {s : Settings} {c : Ctx} {l : Ledger} {P : Ledger → Prop}

/-! ## One call -/

theorem operation_safe {α : Type} {body : RingM α} {Q : α → Ledger → Prop}
    (h : Safe s c P body Q Fails) : Safe s c P (operation body) Q Fails := by
  refine .handle (F := Fails) (.bind Reads.ledgerTurn.fails fun _ => h) fun e => ?_
  split
  · exact .bind .setStatus fun _ => .fail fun _ _ => trivial
  · exact .bind .setStatus fun _ => .fail fun _ _ => trivial
  · exact .bind .setStatus fun _ => .fail fun _ _ => trivial
  · exact .fail fun _ _ => trivial

variable {trusted : Bool} {failure : Fault → Failure} {input : Call × Env} {log : List (Ctx × Entry)} {entry : Entry}

theorem readStatus_safe {now : Int} : Safe s c Anything (readStatus s now trusted) (fun _ => Anything) Fails := by
  refine .handle (operation_safe statusAt_safe) fun e => ?_
  split
  · exact .getMemory fun m => .pure fun _ _ _ => trivial
  · exact .fail fun _ _ => trivial

theorem configure_safe {owner : Bool} {config : RingConfig} {profiles : List SegmentProfile} {now : Int} (hnow : now = c.now)
    (hclaimed : trusted = c.claimed) (hprop : owner = true → c.proposed = some config) :
    Safe s c Anything (configure s owner config profiles now trusted) (fun _ => Anything) Fails := by
  refine .bind (Q := fun _ l => Anything l ∧ owner = true) (.require fun _ _ _ => trivial) fun _ => ?_
  refine .start fun l' _ _ howner => ?_
  refine (Safe.bind (P := Anything) Reads.require.fails fun _ => .bind Reads.require.fails fun _ =>
    .bind Reads.require.fails fun _ => .bind Reads.require.fails fun _ => ?_).strengthen
      fun _ _ _ => trivial
  exact operation_safe (configureRing_safe hnow hclaimed (hprop howner.2))

theorem program_safe (call : Call) (hopen : call ≠ .openRing) (l₀ : Ledger) :
    Safe s (call.ctx l₀) Anything (program s call) (fun _ => Anything) Fails := by
  cases call with
  | openRing => exact absurd rfl hopen
  | close => exact .pure fun _ _ _ => trivial
  | configure owner config profiles now trusted =>
    refine .bind (configure_safe rfl rfl ?_) fun _ => .pure fun _ _ _ => trivial
    rintro rfl
    rfl
  | append source start stop data now trusted =>
    exact .bind (.bind Reads.require.fails fun _ =>
      operation_safe (appendSegment_safe rfl rfl rfl rfl)) fun _ => .pure fun _ _ _ => trivial
  | observeConnection authenticated connected unexpected now trusted =>
    exact .bind (.bind Reads.require.fails fun _ => operation_safe (observe_safe rfl rfl rfl rfl)) fun _ =>
      .pure fun _ _ _ => trivial
  | preserve authorized reason start stop now trusted =>
    have hclock : Safe s (Call.ctx (.preserve authorized reason start stop now trusted) l₀) Anything
        (clock s now trusted) (fun b _ => Ctx.Grants _ now b ∧ (b = true → true = true)) Fails :=
      (clock_grants rfl rfl (clockRead_claimed rfl rfl)).weaken fun _ _ _ h => ⟨h, fun _ => rfl⟩
    exact .bind (.bind Reads.require.fails fun _ => .bind Reads.require.fails fun _ =>
      operation_safe (preserveAt_safe rfl hclock)) fun _ => .pure fun _ _ _ => trivial
  | tick now trusted =>
    exact .bind Reads.require.fails fun _ => .bind (operation_safe (tickRing_safe rfl rfl rfl rfl)) fun _ =>
      .pure fun _ _ _ => trivial
  | deleteIncident owner identifier now trusted =>
    refine .bind (Q := fun _ l => Anything l ∧ owner = true) (.require fun _ _ _ => trivial) fun _ => ?_
    refine .start fun l' _ _ howner => ?_
    obtain ⟨-, rfl⟩ := howner
    exact (Safe.bind (P := Anything) Reads.require.fails fun _ =>
      .bind (operation_safe (deleteIncident_safe rfl rfl rfl rfl)) fun _ =>
      .pure fun _ _ _ => trivial).strengthen fun _ _ _ => trivial
  | incident identifier now =>
    exact .bind Reads.require.fails fun _ => .bind (operation_safe readIncident_safe) fun _ =>
      .pure fun _ _ _ => trivial
  | status now trusted =>
    exact .bind Reads.require.fails fun _ => .bind readStatus_safe fun _ => .pure fun _ _ _ => trivial

/-! ## Opening

The ring is not in memory before the constructor read the configuration, so this call starts outside
of `Sound`. -/

theorem turn_frame (w : World) : (turn failure w).2.ledger = w.ledger ∧ (turn failure w).2.log = w.log := by
  unfold turn
  cases w.turns with
  | nil => exact ⟨rfl, rfl⟩
  | cons t turns =>
    dsimp only
    cases t.fault with
    | none | some fault => exact ⟨rfl, rfl⟩

theorem turn_external (hext : ∀ fault, (failure fault).External) {w : World} {e : Failure} {w' : World}
    (h : turn failure w = (.error e, w')) : e.External := by
  unfold turn at h
  cases hturns : w.turns with
  | nil => simp [hturns] at h
  | cons t turns =>
    simp only [hturns] at h
    cases hfault : t.fault with
    | none => simp [hfault] at h
    | some fault =>
      simp only [hfault, Prod.mk.injEq, Except.error.injEq] at h
      exact h.1 ▸ hext fault

theorem recover_configured (hprop : c.proposed = none) (configuration : Option Configuration) :
    Safe s c (fun l' => l' = l) (match configuration with
      | none => recover s
      | some k => do
        let _ ← requireCapacity s k.config k.profiles {}
        recover s) (fun _ => Anything) fun e _ => e = .ring .protectedSegmentDeletionRefused → Entangled l := by
  have hrecover : Safe s c (fun l' => l' = l) (recover s) (fun _ => Anything) fun e _ =>
      e = .ring .protectedSegmentDeletionRefused → Entangled l :=
    (recover_safe hprop).conseq (fun _ _ h => h) (fun _ _ _ h => h) fun e l' h he => by
      subst he
      exact h.elim (fun hext => False.elim hext) id
  cases configuration with
  | none => exact hrecover
  | some k =>
    refine .bind (Q := fun _ l' => l' = l) ?_ fun _ => hrecover
    refine .getLedger fun l'' _ _ hl'' => (Safe.lift fun e _ _ hcap he => ?_).weaken
      fun _ l' _ h => h.1.trans hl''
    subst he
    unfold Ledger.ledgerCapacity requireRows at hcap
    dsimp only at hcap
    split_ifs at hcap <;> simp [Except.mapError] at hcap

/-- What opening the ring leaves. -/
structure Opened (s : Settings) (c : Ctx) (l₀ : Ledger) (w : World) : Prop where
  valid : w.ledger.Valid
  trace : Trace s c l₀ w.log w.ledger

theorem openRing_triple (hl : l.Valid) (hprop : c.proposed = none) (htimely : Timely c l) :
    Triple (fun w : World => w.ledger = l ∧ w.log = []) (openRing s)
      (fun _ w => Opened s c l w ∧ w.memory.configuration = w.ledger.configuration)
      fun e w => Opened s c l w ∧
        (e = .ring .protectedSegmentDeletionRefused → Entangled l) := by
  have hstart : ∀ w : World, w.ledger = l ∧ w.log = [] → Opened s c l w := by
    rintro w ⟨hw, hlog⟩
    refine ⟨hw ▸ hl, ?_⟩
    rw [hw, hlog]
    exact .nil
  have hturn : ∀ {failure : Fault → Failure}, (∀ fault, (failure fault).External) →
      Triple (fun w : World => w.ledger = l ∧ w.log = []) (turn failure)
      (fun _ w => w.ledger = l ∧ w.log = [])
      fun e w => Opened s c l w ∧ (e = .ring .protectedSegmentDeletionRefused → Entangled l) := by
    intro failure hext w hw
    have hframe : (turn failure w).2.ledger = w.ledger ∧ (turn failure w).2.log = w.log := turn_frame w
    have hkeep : (turn failure w).2.ledger = l ∧ (turn failure w).2.log = [] :=
      ⟨hframe.1.trans hw.1, hframe.2.trans hw.2⟩
    cases hrun : turn failure w with
    | mk r w' =>
      rw [hrun] at hkeep
      cases r with
      | ok a => exact hkeep
      | error e =>
        refine ⟨hstart w' hkeep, ?_⟩
        rintro rfl
        exact (turn_external hext hrun).elim
  refine .bind (hturn fun fault => by cases fault <;> trivial) fun _ =>
    .bind (hturn fun fault => by cases fault <;> trivial) fun _ => .read_bind fun l' => ?_
  refine .bind (Q := fun _ w => w.ledger = l ∧ Sound s c (fun _ => True) l w) (.modify ?_) fun _ => ?_
  · rintro w ⟨⟨hw, hlog⟩, rfl⟩
    refine ⟨hw, hw ▸ hl, hw ▸ htimely, trivial, rfl, ?_⟩
    change Trace s c l w.log w.ledger
    rw [hw, hlog]
    exact .nil
  refine (recover_configured hprop l'.configuration (fun _ => True) l fun _ _ _ _ _ => trivial).conseq (fun w hw => hw)
    (fun _ w hw => ?_) fun e w hw => ?_
  · exact ⟨⟨hw.2.valid, hw.2.trace⟩, hw.2.agrees⟩
  · exact ⟨⟨hw.2.valid, hw.2.trace⟩, hw.1⟩

/-! ## Runs -/

/-- What one call does to a valid system. -/
structure StepSpec (s : Settings) (input : Call × Env) (sys : Sys) : Prop where
  valid : (step s input sys).2.Valid
  trace : Trace s (input.1.ctx sys.ledger) sys.ledger (step s input sys).1.log
    (step s input sys).2.ledger
  /-- Only a row that is both under deletion and protected blocks the constructor. -/
  opens : input.1 = .openRing →
    (step s input sys).1.result = .error (.ring .protectedSegmentDeletionRefused) →
    Entangled sys.ledger

theorem step_idle {sys : Sys} {out : Output} (memory : Option Memory) (hsys : sys.Valid)
    (hstep : step s input sys = (out, { sys with memory := memory })) (hlog : out.log = []) (hmem : ∀ m ∈ memory, m ∈ sys.memory)
    (hresult : out.result ≠ .error (.ring .protectedSegmentDeletionRefused)) : StepSpec s input sys where
  valid := by
    rw [hstep]
    exact ⟨hsys.ledger, fun m hm => hsys.agrees m (hmem m hm)⟩
  trace := by
    rw [hstep, hlog]
    exact .nil
  opens := by
    intro _ hres
    rw [hstep] at hres
    exact absurd hres hresult

theorem step_conclude {sys : Sys} {memory : Memory} (hsys : sys.Valid) (hopen : input.1 ≠ .openRing)
    (hagrees : memory.configuration = sys.ledger.configuration)
    (hstep : step s input sys = conclude false (program s input.1 (sys.world memory input.2))) : StepSpec s input sys := by
  have hrun := program_safe (s := s) input.1 hopen sys.ledger (fun _ => True) sys.ledger
    (fun _ _ _ _ _ => trivial) (sys.world memory input.2)
    ⟨trivial, hsys.ledger, rfl, trivial, hagrees, .nil⟩
  have hsound : Sound s (input.1.ctx sys.ledger) (fun _ => True) sys.ledger
      (program s input.1 (sys.world memory input.2)).2 := by
    cases hp : program s input.1 (sys.world memory input.2) with
    | mk r w =>
      rw [hp] at hrun
      cases r with
      | ok a | error e => exact hrun.2
  refine ⟨?_, ?_, fun h => absurd h hopen⟩
  · rw [hstep]
    refine ⟨hsound.valid, fun m hm => ?_⟩
    simp only [conclude, Option.mem_def] at hm
    split_ifs at hm
    obtain rfl := Option.some.inj hm
    exact hsound.agrees
  · rw [hstep]
    exact hsound.trace

/-- The step lemma: a call takes a valid system to a valid system by permitted changes. -/
theorem step_spec (input : Call × Env) (sys : Sys) (hsys : sys.Valid) : StepSpec s input sys := by
  obtain ⟨call, env⟩ := input
  cases hmem : sys.memory with
  | none =>
    by_cases hopen : call = .openRing
    · subst hopen
      have hstep : step s (.openRing, env) sys =
          conclude true (program s .openRing (sys.world {} env)) := by
        unfold step
        rw [hmem]
      have hopened : Triple (fun w : World => w.ledger = sys.ledger ∧ w.log = [])
          (program s .openRing)
          (fun _ w => Opened s (Call.openRing.ctx sys.ledger) sys.ledger w ∧
            w.memory.configuration = w.ledger.configuration)
          fun e w => Opened s (Call.openRing.ctx sys.ledger) sys.ledger w ∧
            (e = .ring .protectedSegmentDeletionRefused → Entangled sys.ledger) :=
        .bind (openRing_triple hsys.ledger rfl rfl) fun _ => .pure fun _ h => h
      have hrun := hopened (sys.world {} env) ⟨rfl, rfl⟩
      cases hp : program s .openRing (sys.world {} env) with
      | mk r w =>
        rw [hp] at hrun hstep
        cases r with
        | ok a =>
          refine ⟨?_, ?_, fun _ hres => ?_⟩
          · rw [hstep]
            refine ⟨hrun.1.valid, fun m hm => ?_⟩
            obtain rfl := Option.some.inj hm
            exact hrun.2
          · rw [hstep]
            exact hrun.1.trace
          · rw [hstep] at hres
            cases hres
        | error e =>
          refine ⟨?_, ?_, fun _ hres => ?_⟩
          · rw [hstep]
            exact ⟨hrun.1.valid, fun m hm => by cases hm⟩
          · rw [hstep]
            exact hrun.1.trace
          · rw [hstep] at hres
            exact hrun.2 (Except.error.inj hres)
    · have hclosed : ∃ out, step s (call, env) sys = (out, { sys with memory := none }) ∧
          out.log = [] ∧ out.result ≠ .error (.ring .protectedSegmentDeletionRefused) := by
        have hsame : sys = { sys with memory := none } := by
          rw [← hmem]
        unfold step
        rw [hmem]
        cases call with
        | openRing => exact absurd rfl hopen
        | close => exact ⟨_, rfl, rfl, nofun⟩
        | _ => exact ⟨_, congrArg (Prod.mk _) hsame, rfl, nofun⟩
      obtain ⟨out, hstep, hlog, hres⟩ := hclosed
      exact step_idle none hsys hstep hlog (fun m hm => by cases hm) hres
  | some memory =>
    have hagrees := hsys.agrees memory hmem
    cases call with
    | openRing =>
      have hstep : step s (.openRing, env) sys = (⟨.error .unavailable, []⟩, sys) := by
        unfold step
        rw [hmem]
      exact step_idle sys.memory hsys hstep rfl (fun _ h => h) nofun
    | close =>
      have hstep : step s (.close, env) sys = (⟨.ok .done, []⟩, { sys with memory := none }) := by
        unfold step
        rw [hmem]
      exact step_idle none hsys hstep rfl (fun m hm => by cases hm) nofun
    | _ =>
      refine step_conclude hsys nofun hagrees ?_
      unfold step
      rw [hmem]

theorem Chain.append (h : Chain s log l) {new : List Entry} {l' : Ledger} (ht : Trace s c l new l') :
    Chain s (new.map (fun entry => (c, entry)) ++ log) l' := by
  induction ht with
  | nil => exact h
  | cons media _ hp ih => exact .cons c media ih hp

variable {media : Media} {h : History} {sys : Sys}

/-- The run lemma: a history of calls is a chain of permitted changes to a valid system. -/
theorem chain_of_reaches (hr : Reaches (step s) { media := media } h sys) :
    Chain s (entries h) sys.ledger ∧ sys.Valid := by
  induction hr with
  | start => exact ⟨.nil, valid_empty, fun m hm => by cases hm⟩
  | next _ input ih =>
    have hspec := step_spec (s := s) input _ ih.2
    exact ⟨ih.1.append hspec.trace, hspec.valid⟩

theorem Chain.valid (h : Chain s log l) : l.Valid := by
  induction h with
  | nil => exact valid_empty
  | cons c media _ hp ih => exact valid_apply ih hp

theorem Chain.permitted (h : Chain s log l) (hmem : (c, entry) ∈ log) :
    Permitted s c entry.ledger entry.action ∧ entry.ledger.Valid := by
  induction h with
  | nil => exact absurd hmem List.not_mem_nil
  | cons c' media hlog hp ih =>
    rcases List.mem_cons.mp hmem with heq | hmem
    · obtain ⟨rfl, rfl⟩ := Prod.mk.inj heq
      exact ⟨hp, hlog.valid⟩
    · exact ih hmem

theorem permitted_of_reaches (hr : Reaches (step s) { media := media } h sys) {e : Event Sys (Call × Env) Output} (he : e ∈ h)
    (hentry : entry ∈ e.output.log) : Permitted s (contextOf e) entry.ledger entry.action ∧ entry.ledger.Valid := by
  refine (chain_of_reaches hr).1.permitted (c := contextOf e) ?_
  exact List.mem_flatMap.mpr ⟨e, he, List.mem_map.mpr ⟨entry, hentry, rfl⟩⟩

theorem Trace.clock_le {l₀ : Ledger} {log : List Entry} (h : Trace s c l₀ log l) :
    l₀.latestClock.getD 0 ≤ l.latestClock.getD 0 := by
  induction h with
  | nil => exact le_rfl
  | @cons log l action media earlier permitted ih =>
    cases action with
    | recordClock now => exact ih.trans permitted.2.2
    | _ =>
      rw [Ledger.latestClock_apply (by simp)]
      exact ih

/-- In every run of the ring, with crashes, restarts and failures anywhere, the ledger is valid: protection names rows that are
there, trusted rows of a source never overlap, incidents have an expiry exactly from their completion on. An open ring uses the
recorded configuration, and the recorded time never goes back. -/
theorem ledger_stays_valid (s : Settings) (media : Media) (inputs : List (Call × Env)) :
    (perform (step s) { media := media } inputs).2.Valid ∧
    ∀ e ∈ (perform (step s) { media := media } inputs).1, e.before.ledger.latestClock.getD 0 ≤
      (perform (step s) { media := media } inputs).2.ledger.latestClock.getD 0 := by
  have hs := Reaches.perform (step s) { media := media } inputs
  refine ⟨(chain_of_reaches hs).2, ?_⟩
  generalize perform (step s) { media := media } inputs = run at hs ⊢
  obtain ⟨h, sys⟩ := run
  dsimp only at hs ⊢
  induction hs with
  | start => exact fun e he => absurd he List.not_mem_nil
  | @next h sys hs input ih =>
    have hclock := (step_spec (s := s) input sys (chain_of_reaches hs).2).trace.clock_le
    intro e he
    rcases List.mem_cons.mp he with rfl | he
    · exact hclock
    · exact (ih e he).trans hclock

end Sentinel.Ring
