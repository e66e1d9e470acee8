import Sentinel.Detection.Gate

/-!
# Quality recovers through an unbroken run of good frames

`Assessed` says what one `assess` call does. `Inv` compares the counter of the gate with the unbroken runs of good frames that
end at the latest call and replay nothing: there is one as long as the counter, and none is longer than the counter unless the
counter is full. Frames that are replayed in order are refused although nothing breaks their run.
-/

namespace Sentinel.Detection.Gate

open QualityGate

/-- The value measured for the rule is in its sufficient range. -/
def MetricRule.Met (rule : MetricRule) (values : Metric → Option ℚ) : Prop :=
  ∃ v, values rule.metric = some v ∧ rule.minimumSufficient ≤ v ∧ v ≤ rule.maximumSufficient

theorem applyRule_sufficient (values : Metric → Option ℚ) (judged : Quality × List QualityFinding) (rule : MetricRule) :
    (applyRule values judged rule).1 = .sufficient ↔ judged.1 = .sufficient ∧ rule.Met values := by
  obtain ⟨quality, findings⟩ := judged
  have hordered := rule.ordered
  unfold applyRule MetricRule.Met
  cases hv : values rule.metric with
  | none => simp
  | some v =>
    simp only [Option.some.injEq, exists_eq_left']
    by_cases husable : v < rule.minimumUsable ∨ v > rule.maximumUsable
    · have hout : ¬(rule.minimumSufficient ≤ v ∧ v ≤ rule.maximumSufficient) := by
        rintro ⟨hmin, hmax⟩
        rcases husable with h | h <;> linarith
      simp only [husable, if_true, hout, and_false, iff_false]
      split <;> simp_all
    · by_cases hsufficient : v < rule.minimumSufficient ∨ v > rule.maximumSufficient
      · have hout : ¬(rule.minimumSufficient ≤ v ∧ v ≤ rule.maximumSufficient) := by
          rintro ⟨hmin, hmax⟩
          rcases hsufficient with h | h <;> linarith
        simp only [husable, hsufficient, if_true, if_false, hout, and_false, iff_false]
        split <;> simp_all
      · simp only [husable, hsufficient, if_false]
        push Not at hsufficient
        simp [hsufficient.1, hsufficient.2]

theorem rules_sufficient (values : Metric → Option ℚ) (rules : List MetricRule) (judged : Quality × List QualityFinding) :
    (rules.foldl (applyRule values) judged).1 = .sufficient ↔
      judged.1 = .sufficient ∧ ∀ rule ∈ rules, rule.Met values := by
  induction rules generalizing judged with
  | nil => simp
  | cons rule rules ih =>
    rw [List.foldl_cons, ih, applyRule_sufficient]
    simp [and_assoc]

/-- The state of the gate is that after a frame of this stream, sequence number and shape. -/
def QualityGate.At (g : QualityGate) (frame : GrayFrame) : Prop :=
  g.streamId = some frame.streamId ∧ g.sequence = frame.sequence ∧ g.shape = some frame.shape

/-- The frame is the next one after the older frame, in its stream and shape. -/
def Follows (newer older : GrayFrame) : Prop :=
  newer.streamId = older.streamId ∧ newer.shape = older.shape ∧ newer.sequence = older.sequence + 1

/-- The gate has seen no frame of this stream with this sequence number or a higher one. -/
def QualityGate.Fresh (g : QualityGate) (frame : GrayFrame) : Prop :=
  g.streamId = some frame.streamId → g.sequence < frame.sequence

/-- The call is of this source, with a matching context and an available execution, and measures every rule in its sufficient
range. -/
structure Good (sourceId : Nat) (policy : QualityPolicy) (frame : GrayFrame) (execution : Execution)
    (context : Option FrameIdentity) (measurement : Measurement) : Prop where
  source : frame.sourceId = sourceId
  context : ∀ c ∈ context, c = .fromFrame frame
  execution : execution.available = true
  measured : ∃ values, measurement = .ok values ∧ ∀ rule ∈ policy.rules, rule.Met values

/-- What an `assess` call does to the gate: it ends the run of good frames, or it is one of them, the next of the run that the
counter counts or the first of a new one. -/
inductive Assessed (sourceId : Nat) (policy : QualityPolicy) (g : QualityGate) (frame : GrayFrame) (execution : Execution)
    (context : Option FrameIdentity) (measurement : Measurement) (d : QualityDecision) (g' : QualityGate) : Prop
  | poor (hcount : g'.good = 0) (hd : d.quality ≠ .sufficient)
      (hgood : Good sourceId policy frame execution context measurement → ¬g.Fresh frame)
  | good (n : Nat) (hn : n = g.good ∧ (∀ older, g.At older → Follows frame older) ∨
        n = 0 ∧ ∀ older, g.At older → ¬Follows frame older)
      (hcount : g'.good = min (n + 1) policy.recoveryFrames)
      (hd : d.quality = .sufficient ↔ g'.good = policy.recoveryFrames)
      (hat : g'.At frame) (hgood : Good sourceId policy frame execution context measurement) (hfresh : g.Fresh frame)

section Assess

variable {sourceId : Nat} {policy : QualityPolicy} {g g' : QualityGate} {frame : GrayFrame} {execution : Execution}
  {context : Option FrameIdentity} {measurement : Measurement}

theorem refuse_assessed {reason : QualityReason}
    (hgood : Good sourceId policy frame execution context measurement → ¬g.Fresh frame) :
    Assessed sourceId policy g frame execution context measurement (g'.refuse frame reason).1 (g'.refuse frame reason).2 :=
  .poor rfl (by simp [refuse]) hgood

theorem enter_fresh : (frame.sequence : Int) ≤ (g.enter frame).sequence ↔ ¬g.Fresh frame := by
  unfold enter Fresh
  by_cases hstream : g.streamId = some frame.streamId
  · rw [if_neg (not_not_intro hstream)]
    simp [hstream]
  · rw [if_pos hstream]
    simp only [hstream, false_imp_iff, not_true_eq_false, iff_false, not_le]
    omega

theorem place_at : ((g.enter frame).place frame).At frame := by
  unfold enter place At
  split <;> split <;> simp_all

/-- The counter before the rules: it is kept for a frame that follows, and cleared for any other. -/
theorem place_good :
    ((g.enter frame).place frame).good = g.good ∧ (∀ older, g.At older → Follows frame older) ∨
      ((g.enter frame).place frame).good = 0 ∧ ∀ older, g.At older → ¬Follows frame older := by
  unfold enter
  by_cases hstream : g.streamId = some frame.streamId
  case neg =>
    right
    rw [if_pos hstream]
    constructor
    · unfold place
      split <;> rfl
    · rintro older ⟨hold, _, _⟩ ⟨hsame, _, _⟩
      exact hstream (hold.trans (congrArg some hsame.symm))
  rw [if_neg (not_not_intro hstream)]
  by_cases hbreak : (frame.sequence : Int) ≠ g.sequence + 1 ∨ some frame.shape ≠ g.shape
  · right
    refine ⟨by simp [place, hbreak], ?_⟩
    rintro older ⟨_, hold, hshape⟩ ⟨_, hsame, hnext⟩
    rcases hbreak with h | h
    · omega
    · exact h (hshape.trans (congrArg some hsame.symm)).symm
  · left
    refine ⟨by simp [place, hbreak], ?_⟩
    rintro older ⟨hold, hsequence, hshape⟩
    push Not at hbreak
    refine ⟨?_, ?_, ?_⟩
    · exact Option.some.inj (hstream.symm.trans hold)
    · exact Option.some.inj (hbreak.2.trans hshape)
    · omega

theorem assess_assessed (measurement : Measurement) :
    Assessed sourceId policy g frame execution context measurement
      (g.assess sourceId policy frame execution context measurement).1
      (g.assess sourceId policy frame execution context measurement).2 := by
  unfold assess
  by_cases hsource : frame.sourceId = sourceId
  case neg =>
    rw [if_pos hsource]
    exact refuse_assessed fun hgood => absurd hgood.source hsource
  have hmatch : (context.any fun c => c ≠ .fromFrame frame) = true ↔ ¬∀ c ∈ context, c = .fromFrame frame := by
    cases context <;> simp
  by_cases hcontext : context.any fun c => c ≠ .fromFrame frame
  case pos =>
    rw [if_neg (not_not_intro hsource), if_pos hcontext]
    exact refuse_assessed fun hgood => absurd hgood.context (hmatch.1 hcontext)
  rw [if_neg (not_not_intro hsource), if_neg hcontext]
  dsimp only
  by_cases hlater : (frame.sequence : Int) ≤ (g.enter frame).sequence
  case pos =>
    rw [if_pos hlater]
    exact refuse_assessed fun _ => enter_fresh.1 hlater
  have hfresh : g.Fresh frame := not_not.1 (mt enter_fresh.2 hlater)
  by_cases havailable : execution.available = true
  case neg =>
    rw [if_neg hlater, if_pos havailable]
    exact refuse_assessed fun hgood => absurd hgood.execution havailable
  rw [if_neg hlater, if_neg (not_not_intro havailable)]
  cases measurement with
  | error reason =>
    refine refuse_assessed fun hgood => ?_
    obtain ⟨_, hvalues, _⟩ := hgood.measured
    cases hvalues
  | ok values =>
    dsimp only
    have hrules := rules_sufficient values policy.rules (.sufficient, [])
    by_cases hquality : (policy.rules.foldl (applyRule values) (.sufficient, [])).1 = .sufficient
    case neg =>
      rw [if_neg hquality]
      refine .poor rfl hquality fun hgood => ?_
      obtain ⟨_, hvalues, hmet⟩ := hgood.measured
      cases hvalues
      exact absurd (hrules.2 ⟨rfl, hmet⟩) hquality
    have hgood : Good sourceId policy frame execution context (.ok values) :=
      ⟨hsource, not_not.1 (mt hmatch.2 hcontext), havailable, values, rfl, (hrules.1 hquality).2⟩
    rw [if_pos hquality]
    by_cases hfull : min (((g.enter frame).place frame).good + 1) policy.recoveryFrames < policy.recoveryFrames
    · rw [if_pos hfull]
      refine .good _ place_good rfl ?_ place_at hgood hfresh
      simp only [reduceCtorEq, false_iff]
      omega
    · rw [if_neg hfull]
      refine .good _ place_good rfl ?_ place_at hgood hfresh
      simp only [true_iff]
      omega

/-- A decision is sufficient exactly when the counter has reached the number of frames that the policy asks for. -/
theorem assess_sufficient_iff :
    (g.assess sourceId policy frame execution context measurement).1.quality = .sufficient ↔
      policy.recoveryFrames ≤ (g.assess sourceId policy frame execution context measurement).2.good := by
  have hrecovery := policy.recovery.1
  cases @assess_assessed sourceId policy g frame execution context measurement with
  | poor hcount hd _ =>
    constructor
    · intro hquality
      exact absurd hquality hd
    · intro hle
      omega
  | good n _ hcount hd _ _ _ =>
    rw [hd]
    omega

end Assess

/-! ## Runs of good frames -/

/-- A call of the gate in a run. -/
abbrev GateEvent := Event QualityGate GateCall GateReply

def GateCall.frame? : GateCall → Option GrayFrame
  | .assess frame .. => some frame
  | _ => none

/-- An `invalidate`, or a `guard_result` with unavailable execution. -/
def GateCall.breaks : GateCall → Bool
  | .assess .. => false
  | .invalidate execution | .guardResult _ _ execution _ => !execution.available

def frames (run : List GateEvent) : List GrayFrame := run.filterMap fun e => e.input.frame?

/-- A call that does not break a run of good frames. -/
def GateCall.Steady (sourceId : Nat) (policy : QualityPolicy) : GateCall → Prop
  | .assess frame execution context measurement => Good sourceId policy frame execution context measurement
  | call => call.breaks = false

/-- All `assess` calls of the stretch are good, each frame follows the one before, and nothing breaks the run. -/
structure Unbroken (sourceId : Nat) (policy : QualityPolicy) (run : List GateEvent) : Prop where
  steady : ∀ e ∈ run, e.input.Steady sourceId policy
  follows : (frames run).IsChain Follows

/-- An unbroken stretch without a frame that replays the stream. -/
structure Advancing (sourceId : Nat) (policy : QualityPolicy) (run : List GateEvent) : Prop extends
    Unbroken sourceId policy run where
  fresh : ∀ e ∈ run, ∀ frame ∈ e.input.frame?, e.before.Fresh frame

section Run

variable {sourceId : Nat} {policy : QualityPolicy} {run recent older : List GateEvent} {e : GateEvent}

theorem Advancing.nil : Advancing sourceId policy [] := ⟨⟨by simp, by simp [frames]⟩, by simp⟩

theorem Advancing.of_infix (h : Advancing sourceId policy run) (hrecent : recent <:+: run) : Advancing sourceId policy recent where
  steady e he := h.steady e (hrecent.subset he)
  follows := h.follows.infix (hrecent.filterMap _)
  fresh e he := h.fresh e (hrecent.subset he)

/-- The latest calls of a stretch, back to any number of the frames in it. -/
theorem Advancing.exists_length {n : Nat} (h : Advancing sourceId policy run) (hn : n ≤ (frames run).length) :
    ∃ recent older, run = recent ++ older ∧ Advancing sourceId policy recent ∧ (frames recent).length = n := by
  induction run using List.reverseRecOn with
  | nil => exact ⟨[], [], rfl, h, by simpa [frames] using hn.antisymm (Nat.zero_le _) |>.symm⟩
  | append_singleton run e ih =>
    by_cases hlt : n ≤ (frames run).length
    · obtain ⟨recent, older, rfl, hrecent, hlength⟩ := ih (h.of_infix (List.prefix_append run [e]).isInfix) hlt
      exact ⟨recent, older ++ [e], by simp, hrecent, hlength⟩
    · refine ⟨run ++ [e], [], by simp, h, ?_⟩
      have hle : (frames (run ++ [e])).length ≤ (frames run).length + 1 := by
        rw [frames, List.filterMap_append, List.length_append]
        exact Nat.add_le_add_left (List.length_filterMap_le _ _) _
      omega

theorem Advancing.of_cons (h : Advancing sourceId policy (e :: run)) : Advancing sourceId policy run :=
  h.of_infix (List.suffix_cons e run).isInfix

theorem Advancing.cons (h : Advancing sourceId policy run) (he : e.input.Steady sourceId policy)
    (hfresh : ∀ frame ∈ e.input.frame?, e.before.Fresh frame)
    (hfollows : ∀ frame ∈ e.input.frame?, ∀ f ∈ (frames run).head?, Follows frame f) : Advancing sourceId policy (e :: run) := by
  refine ⟨⟨List.forall_mem_cons.2 ⟨he, h.steady⟩, ?_⟩, List.forall_mem_cons.2 ⟨hfresh, h.fresh⟩⟩
  rw [frames, List.filterMap_cons]
  cases hframe : e.input.frame? with
  | none => exact h.follows
  | some frame => exact List.isChain_cons.2 ⟨hfollows frame hframe, h.follows⟩

end Run

/-! ## The counter and the runs -/

/-- The decision of this number is in the history, and no `assess` call and no break came after it. -/
def Latest (h : List GateEvent) (g : QualityGate) (number : Nat) : Prop :=
  ∃ since e earlier d revoked, h = since ++ e :: earlier ∧ e.output = .decided number d revoked ∧
    g.decisions[number]? = some d ∧ ∀ x ∈ since, x.input.frame? = none ∧ x.input.breaks = false

/-- The counter of the gate against the stretches of calls that end at the latest one, and the latest decision. -/
structure Inv (sourceId : Nat) (policy : QualityPolicy) (h : List GateEvent) (g : QualityGate) : Prop where
  held : ∃ run older, h = run ++ older ∧ Advancing sourceId policy run ∧ g.good ≤ (frames run).length
  most : ∀ run older, h = run ++ older → Advancing sourceId policy run → min (frames run).length policy.recoveryFrames ≤ g.good
  newest : ∀ run older frame, h = run ++ older → Advancing sourceId policy run → frame ∈ (frames run).head? → g.At frame
  latest : ∀ number, g.latest = some number → Latest h g number

section Step

variable {sourceId : Nat} {policy : QualityPolicy} {h : List GateEvent} {g : QualityGate} {call : GateCall} {e : GateEvent}
  {revoked : Option Reason}

/-- A call that does not assess forgets the run and the latest decision if it breaks, and changes nothing otherwise. -/
theorem step_other (hframe : call.frame? = none) :
    (step sourceId policy call g).2 = if call.breaks then { g with good := 0, latest := none } else g := by
  cases call with
  | assess => simp [GateCall.frame?] at hframe
  | invalidate execution =>
    unfold step GateCall.breaks
    cases hx : execution.available <;> simp [hx]
  | guardResult decision result execution frame =>
    unfold step GateCall.breaks
    dsimp only
    split
    · rfl
    · split <;> rfl

theorem Inv.init : Inv sourceId policy [] {} := by
  refine ⟨⟨[], [], rfl, .nil, by simp [frames]⟩, ?_, ?_, by simp⟩
  · intro run older hrun _
    obtain ⟨rfl, _⟩ := List.append_eq_nil_iff.1 hrun.symm
    simp [frames]
  · intro run older frame hrun _ hframe
    obtain ⟨rfl, _⟩ := List.append_eq_nil_iff.1 hrun.symm
    simp [frames] at hframe

/-- A stretch that ends at the latest call is empty, or has that call and a stretch of the earlier ones. -/
theorem stretch_cons {P : List GateEvent → Prop} (hnil : P []) (hcons : ∀ run older, h = run ++ older → P (e :: run)) :
    ∀ run older, e :: h = run ++ older → P run := by
  intro run older hcut
  cases run with
  | nil => exact hnil
  | cons x run =>
    obtain ⟨rfl, hcut'⟩ := List.cons.inj hcut
    exact hcons run older hcut'

/-- After a call that ends the run no stretch with a frame in it ends at this call. -/
theorem Inv.of_broken {g' : QualityGate} (hbroken : ∀ run, ¬Advancing sourceId policy (e :: run)) (hgood : g'.good = 0)
    (hlatest : ∀ number, g'.latest = some number → Latest (e :: h) g' number) : Inv sourceId policy (e :: h) g' := by
  refine ⟨⟨[], e :: h, rfl, .nil, by simp [hgood]⟩, ?_, ?_, hlatest⟩
  · exact stretch_cons (by simp [frames]) fun run _ _ hrun => absurd hrun (hbroken run)
  · intro run older frame hcut
    revert run older
    exact stretch_cons (by simp [frames]) fun run _ _ hrun => absurd hrun (hbroken run)

theorem steady_other (hframe : call.frame? = none) : call.Steady sourceId policy ↔ call.breaks = false := by
  cases call with
  | assess => simp [GateCall.frame?] at hframe
  | invalidate | guardResult => rfl

theorem Inv.other (hI : Inv sourceId policy h g) (hframe : call.frame? = none) :
    Inv sourceId policy (Event.of (step sourceId policy) g call :: h) (step sourceId policy call g).2 := by
  rw [step_other hframe]
  set e := Event.of (step sourceId policy) g call
  have hframes (run : List GateEvent) : frames (e :: run) = frames run := by
    rw [frames, List.filterMap_cons, show e.input.frame? = none from hframe, frames]
  by_cases hbreaks : call.breaks = true
  · rw [if_pos hbreaks]
    refine .of_broken ?_ rfl (by simp)
    intro run hrun
    have hquiet : call.breaks = false := (steady_other hframe).1 (hrun.steady e List.mem_cons_self)
    simp [hbreaks] at hquiet
  have hquiet : e.input.breaks = false := Bool.not_eq_true _ ▸ hbreaks
  rw [if_neg hbreaks]
  refine ⟨?_, ?_, ?_, ?_⟩
  · obtain ⟨run, older, rfl, hrun, hle⟩ := hI.held
    have hnone (x : GrayFrame) (hx : x ∈ e.input.frame?) : False := by cases hframe.symm.trans hx
    refine ⟨e :: run, older, rfl, hrun.cons ((steady_other hframe).2 hquiet) ?_ ?_, by rwa [hframes]⟩
    · exact fun x hx => (hnone x hx).elim
    · exact fun x hx => (hnone x hx).elim
  · refine stretch_cons (by simp [frames]) ?_
    intro run older hcut hrun
    rw [hframes]
    exact hI.most run older hcut hrun.of_cons
  · intro run older frame
    revert run older
    refine stretch_cons (by simp [frames]) ?_
    intro run older hcut hrun hhead
    rw [hframes] at hhead
    exact hI.newest run older frame hcut hrun.of_cons hhead
  · intro number hnumber
    obtain ⟨since, a, earlier, d, revoked, rfl, houtput, hd, hsince⟩ := hI.latest number hnumber
    refine ⟨e :: since, a, earlier, d, revoked, rfl, houtput, hd, ?_⟩
    intro x hx
    rcases List.mem_cons.1 hx with rfl | hx
    · exact ⟨hframe, hquiet⟩
    · exact hsince x hx

theorem Inv.assess (hI : Inv sourceId policy h g) (frame : GrayFrame) (execution : Execution) (context : Option FrameIdentity)
    (measurement : Measurement) :
    Inv sourceId policy (Event.of (step sourceId policy) g (.assess frame execution context measurement) :: h)
      (step sourceId policy (.assess frame execution context measurement) g).2 := by
  set e := Event.of (step sourceId policy) g (.assess frame execution context measurement)
  have hassessed := @assess_assessed sourceId policy g frame execution context measurement
  have hlatest : ∀ number, (step sourceId policy (.assess frame execution context measurement) g).2.latest = some number →
      Latest (e :: h) (step sourceId policy (.assess frame execution context measurement) g).2 number := by
    intro number hnumber
    cases hnumber
    exact ⟨[], e, h, _, _, rfl, rfl, List.getElem?_concat_length, by simp⟩
  have hframes (run : List GateEvent) : frames (e :: run) = frame :: frames run := rfl
  cases hassessed with
  | poor hcount hd hgood =>
    refine .of_broken (fun run hrun => ?_) hcount hlatest
    exact hgood (hrun.steady e List.mem_cons_self) (hrun.fresh e List.mem_cons_self frame rfl)
  | good n hn hcount hd hat hgood hfresh =>
    have hcons {run : List GateEvent} (hrun : Advancing sourceId policy run)
        (hfollows : ∀ f ∈ (frames run).head?, Follows frame f) : Advancing sourceId policy (e :: run) := by
      refine hrun.cons hgood ?_ ?_
      · rintro _ ⟨⟩
        exact hfresh
      · rintro _ ⟨⟩
        exact hfollows
    refine ⟨?_, ?_, ?_, hlatest⟩
    · rcases hn with ⟨rfl, hfollows⟩ | ⟨rfl, _⟩
      · obtain ⟨run, older, rfl, hrun, hle⟩ := hI.held
        refine ⟨e :: run, older, rfl, hcons hrun ?_, ?_⟩
        · intro f hf
          exact hfollows f (hI.newest run older f rfl hrun hf)
        · change (g.assess sourceId policy frame execution context measurement).2.good ≤ _
          rw [hframes, List.length_cons]
          omega
      · refine ⟨[e], h, rfl, hcons .nil (by simp [frames]), ?_⟩
        change (g.assess sourceId policy frame execution context measurement).2.good ≤ _
        rw [hframes, List.length_cons]
        omega
    · refine stretch_cons (by simp [frames]) ?_
      intro run older hcut hrun
      change _ ≤ (g.assess sourceId policy frame execution context measurement).2.good
      rw [hframes, List.length_cons]
      cases hlist : frames run with
      | nil =>
        simp only [List.length_nil]
        omega
      | cons f rest =>
        have hmost := hI.most run older hcut hrun.of_cons
        have hat' : g.At f := hI.newest run older f hcut hrun.of_cons (by rw [hlist]; rfl)
        have hfollows : Follows frame f := by
          have hchain := hrun.follows
          rw [hframes, hlist] at hchain
          exact hchain.rel
        -- the frame follows the newest one of the stretch, so the counter was kept
        have hkept : n = g.good := by
          rcases hn with ⟨hn, _⟩ | ⟨_, hnot⟩
          · exact hn
          · exact absurd hfollows (hnot f hat')
        rw [hlist] at hmost
        omega
    · intro run older f
      revert run older
      refine stretch_cons (by simp [frames]) ?_
      intro run older hcut hrun hhead
      rw [hframes] at hhead
      cases hhead
      exact hat

theorem inv_of_reaches (hs : Reaches (step sourceId policy) {} h g) : Inv sourceId policy h g := by
  induction hs with
  | start => exact .init
  | next hs call ih =>
    cases call with
    | assess frame execution context measurement => exact ih.assess frame execution context measurement
    | invalidate execution | guardResult decision result execution frame => exact ih.other rfl

/-- The counter has reached the number of frames that the policy asks for exactly when an unbroken stretch has. -/
theorem Inv.recovered_iff (hI : Inv sourceId policy h g) : policy.recoveryFrames ≤ g.good ↔
    ∃ run older, h = run ++ older ∧ Advancing sourceId policy run ∧ (frames run).length = policy.recoveryFrames := by
  constructor
  · intro hle
    obtain ⟨run, older, rfl, hrun, hheld⟩ := hI.held
    obtain ⟨recent, between, rfl, hrecent, hlength⟩ := hrun.exists_length (hle.trans hheld)
    exact ⟨recent, between ++ older, List.append_assoc _ _ _, hrecent, hlength⟩
  · rintro ⟨run, older, rfl, hrun, hlength⟩
    have hmost := hI.most run older rfl hrun
    rwa [hlength, min_self] at hmost

theorem step_decided {number : Nat} {d : QualityDecision} (hout : (step sourceId policy call g).1 = .decided number d revoked) :
    ∃ frame execution context measurement, call = .assess frame execution context measurement ∧
      d = (g.assess sourceId policy frame execution context measurement).1 := by
  cases call with
  | assess frame execution context measurement =>
    cases hout
    exact ⟨frame, execution, context, measurement, rfl, rfl⟩
  | invalidate execution =>
    unfold step at hout
    dsimp only at hout
    split at hout <;> cases hout
  | guardResult decision result execution frame =>
    unfold step at hout
    dsimp only at hout
    split at hout
    · cases hout
    · split at hout <;> cases hout

/-- A result that is not unknown was guarded by a sufficient decision of its frame, the latest one. -/
theorem guardResult_concludes {decision : Option Nat} {result : Option DetectionResult} {execution : Execution}
    {frame : FrameIdentity} {detection : DetectionResult}
    (hout : (step sourceId policy (.guardResult decision result execution frame) g).1 = .returned detection revoked)
    (hknown : detection.observation ≠ .unknown) :
    ∃ number d, decision = some number ∧ g.latest = some number ∧ g.decisions[number]? = some d ∧
      d.quality = .sufficient ∧ d.frame = frame := by
  unfold step at hout
  dsimp only at hout
  split at hout
  · cases hout
    exact absurd rfl hknown
  rename_i hlatest
  split at hout
  · cases hout
  rename_i d hd
  cases hout
  obtain ⟨number, hnumber, hd⟩ := Option.bind_eq_some_iff.1 hd
  refine ⟨number, d, hnumber, ?_, hd, ?_⟩
  · rw [← not_not.1 hlatest, hnumber]
  · by_contra hnot
    apply hknown
    rw [guarded, if_pos]
    · rfl
    · tauto

end Step

/-- An assessment is sufficient exactly when it ends an unbroken stretch of as many good frames as the policy asks for, none of
which replays the stream, and only the latest decision, sufficient for the frame and with no break since, lets a result through
that is not unknown. -/
theorem quality_recovers (sourceId : Nat) (policy : QualityPolicy) (calls : List GateCall) :
    (∀ later e earlier number d revoked, (perform (step sourceId policy) {} calls).1 = later ++ e :: earlier →
      e.output = .decided number d revoked →
      (d.quality = .sufficient ↔ ∃ run older, e :: earlier = run ++ older ∧ Advancing sourceId policy run ∧
        (frames run).length = policy.recoveryFrames)) ∧
    ∀ later e earlier decision result execution frame detection revoked,
      (perform (step sourceId policy) {} calls).1 = later ++ e :: earlier →
      e.input = .guardResult decision result execution frame → e.output = .returned detection revoked →
      detection.observation ≠ .unknown →
      ∃ since a before number d revoked, earlier = since ++ a :: before ∧ decision = some number ∧
        a.output = .decided number d revoked ∧ d.quality = .sufficient ∧ d.frame = frame ∧
        ∀ x ∈ since, x.input.frame? = none ∧ x.input.breaks = false := by
  have hs := Reaches.perform (step sourceId policy) {} calls
  constructor
  · intro later e earlier number d revoked hcut hout
    rw [hcut] at hs
    obtain ⟨s', hs'⟩ := hs.of_append
    have hI := inv_of_reaches hs'
    obtain rfl := hs'.after_eq
    have he := hs'.head
    rw [he] at hout
    obtain ⟨frame, execution, context, measurement, hcall, rfl⟩ := step_decided hout
    have hcount : e.after.good = (e.before.assess sourceId policy frame execution context measurement).2.good := by
      rw [he, hcall]
      rfl
    rw [assess_sufficient_iff, ← hcount]
    exact hI.recovered_iff
  · intro later e earlier decision result execution frame detection revoked hcut hin hout hknown
    rw [hcut] at hs
    obtain ⟨hbefore, he⟩ := hs.event
    have hI := inv_of_reaches hbefore
    rw [he, hin] at hout
    obtain ⟨number, d, hnumber, hlatest, hd, hquality, hframe⟩ := guardResult_concludes hout hknown
    obtain ⟨since, a, before, d', revoked', hearlier, ha, hd', hsince⟩ := hI.latest number hlatest
    cases hd.symm.trans hd'
    exact ⟨since, a, before, number, d, revoked', hearlier, hnumber, ha, hquality, hframe, hsince⟩

/-- A policy with one rule that recovers with two frames. -/
def twoFrames : QualityPolicy where
  rules := [⟨.luminance, 0, 0, 1, 1, by decide, by decide⟩]
  recoveryFrames := 2
  rules_ne_nil := by simp
  distinct := by simp
  recovery := by decide

def brightFrame (sequence : Nat) : GateCall :=
  .assess { sourceId := 0, streamId := 0, sequence, width := 1, height := 1, pixels := [255], size := rfl } .succeeded none
    (.ok fun _ => some 1)

theorem brightFrame_steady (sequence : Nat) : (brightFrame sequence).Steady 0 twoFrames := by
  refine ⟨rfl, by simp, rfl, _, rfl, ?_⟩
  simp [twoFrames, MetricRule.Met]

theorem quality_recovers_second_frame :
    ∃ e earlier number d revoked, (perform (step 0 twoFrames) {} [brightFrame 5, brightFrame 6]).1 = e :: earlier ∧
      e.output = .decided number d revoked ∧ d.quality = .sufficient ∧
      ∃ run older, e :: earlier = run ++ older ∧ Advancing 0 twoFrames run ∧ (frames run).length = 2 := by
  refine ⟨_, _, _, _, _, rfl, rfl, by decide +kernel, ?_⟩
  exact ((quality_recovers 0 twoFrames [brightFrame 5, brightFrame 6]).1 [] _ _ _ _ _ rfl rfl).1 (by decide +kernel)

/-- The frames 3 and 4, replayed after 5 and 6, are an unbroken stretch of two good frames that ends in an unknown quality. -/
theorem replayed_frames_stay_unknown :
    ∃ e earlier number d revoked,
      (perform (step 0 twoFrames) {} [brightFrame 5, brightFrame 6, brightFrame 3, brightFrame 4]).1 = e :: earlier ∧
      e.output = .decided number d revoked ∧ d.quality = .unknown ∧
      ∃ run older, e :: earlier = run ++ older ∧ Unbroken 0 twoFrames run ∧ (frames run).length = twoFrames.recoveryFrames := by
  refine ⟨_, _, _, _, _, rfl, rfl, by decide +kernel, [_, _], _, rfl, ⟨?_, ?_⟩, rfl⟩
  · simp only [List.forall_mem_cons, List.not_mem_nil, false_imp_iff, implies_true, and_true]
    exact ⟨brightFrame_steady 4, brightFrame_steady 3⟩
  · exact .cons_cons ⟨rfl, rfl, rfl⟩ (.singleton _)

end Sentinel.Detection.Gate
