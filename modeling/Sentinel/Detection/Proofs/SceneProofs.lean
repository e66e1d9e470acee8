import Mathlib.Data.List.TakeWhile
import Sentinel.Detection.Scene

/-!
# Proofs: the scene detector

Every path of a call either observes a condition that is present or leaves the empty confirmation, so the confirmation
of a kind describes the run of qualifying calls at the head of the history: its length, its first sample and whether it
emitted. The watermarks say where the last recorded sample stands.
-/

namespace Sentinel.Detection.Scene

variable {c : Calibration} {kind : CriticalKind} {d d' : Detector} {e : SceneEvent} {h later earlier : List SceneEvent}
  {f : GrayFrame} {now : Nat} {m : Described} {i : Call} {streamId : Nat}

/-- The confirmation of a kind. -/
def Detector.confirmation (d : Detector) : CriticalKind → Confirmation
  | .serverMovement => d.movement
  | .cameraTamper => d.tamper

/-- The outcome carries a confirmation of the kind. -/
def Outcome.confirms (o : Outcome) (kind : CriticalKind) : Bool :=
  match o with
  | .raised => false
  | .observed o => o.critical.any fun x => decide (x.kind = kind) && decide (x.reason ≠ .sourceLossAfterSceneShift)

/-! ## What a call does to a confirmation -/

/-- What is left of a confirmation and what is emitted, by whether the condition holds. -/
structure Reported (kind : CriticalKind) (k : Confirmation) (now : Nat) (policy : Policy) (holds : Bool)
    (critical : List CriticalObservation) (k' : Confirmation) : Prop where
  confirmation : k' = if holds then (k.observe true now policy).2 else {}
  critical : ∃ x : CriticalObservation, x.kind = kind ∧ x.reason ≠ .sourceLossAfterSceneShift ∧
    critical = if holds && (k.observe true now policy).1.emit then [x] else []

section Reported

variable {k k' : Confirmation} {policy : Policy} {present : Bool} {critical : List CriticalObservation}

theorem Reported.absent (x : CriticalObservation) (hx : x.kind = kind ∧ x.reason ≠ .sourceLossAfterSceneShift) :
    Reported kind k now policy false [] {} :=
  ⟨rfl, x, hx.1, hx.2, rfl⟩

theorem Reported.observe (x : CriticalObservation) (hx : x.kind = kind ∧ x.reason ≠ .sourceLossAfterSceneShift) :
    Reported kind k now policy present (if (k.observe present now policy).1.emit then [x] else [])
      (k.observe present now policy).2 := by
  cases present with
  | false => exact ⟨rfl, x, hx.1, hx.2, rfl⟩
  | true => exact ⟨rfl, x, hx.1, hx.2, by rw [Bool.true_and]⟩

theorem Reported.confirms (h : Reported kind k now policy present critical k') (kind' : CriticalKind) :
    (critical.any fun x => decide (x.kind = kind') && decide (x.reason ≠ .sourceLossAfterSceneShift)) =
      (decide (kind = kind') && (present && (k.observe true now policy).1.emit)) := by
  obtain ⟨x, hkind, hreason, heq⟩ := h.critical
  rw [heq]
  split_ifs with hemit
  · simp [hkind, hreason, hemit]
  · simp [hemit]

end Reported

theorem judgeMovement_reported (d : Detector) (f : GrayFrame) (now : Nat) (m : Described) :
    Reported .serverMovement d.movement now c.policy (holds c .serverMovement f m)
      (d.judgeMovement c f now m).1.critical (d.judgeMovement c f now m).2 := by
  have hevent : ∀ confidence (confirmed displaced : Bool), let reason : Reason :=
        if confirmed then .serverGeometryChanged
        else if displaced then .awaitingConfirmation else .referenceGeometryMatches
      (d.event .serverMovement f now m confidence reason).kind = .serverMovement ∧
        (d.event .serverMovement f now m confidence reason).reason ≠ .sourceLossAfterSceneShift := by
    intro confidence confirmed displaced
    refine ⟨rfl, ?_⟩
    cases confirmed <;> cases displaced <;> exact nofun
  have habsent : holds c .serverMovement f m = false →
      Reported .serverMovement d.movement now c.policy (holds c .serverMovement f m) [] {} := by
    intro hnot
    rw [hnot]
    exact .absent _ (hevent 0 true true)
  unfold Detector.judgeMovement
  by_cases hquality : m.movementQuality = .sufficient
  · rw [if_pos hquality]
    cases hmeasure : c.measureMovement f m.roiOccluded with
    | inl reason => exact habsent (by simp [holds, hmeasure])
    | inr r =>
      have hholds : holds c .serverMovement f m = r.1.reaches c.policy.movementPixels := by
        simp [holds, hquality, hmeasure]
      rw [hholds]
      exact .observe _ (hevent _ _ _)
  · rw [if_neg hquality]
    exact habsent (by simp [holds, hquality])

theorem measureScene_reason (f : GrayFrame) : (c.measureScene f).reason ≠ .sourceLossAfterSceneShift := by
  unfold Calibration.measureScene
  simp only
  split
  · exact nofun
  · split_ifs
    all_goals first | simp; done | (split <;> simp)

theorem judgeTamper_reported (d : Detector) (f : GrayFrame) (now : Nat) (m : Described) :
    Reported .cameraTamper d.tamper now c.policy (holds c .cameraTamper f m)
      (d.judgeTamper c f now m).1.critical (d.judgeTamper c f now m).2.1 := by
  have hevent : ∀ confidence,
      (d.event .cameraTamper f now m confidence (c.measureScene f).reason).kind = .cameraTamper ∧
        (d.event .cameraTamper f now m confidence (c.measureScene f).reason).reason ≠ .sourceLossAfterSceneShift :=
    fun confidence => ⟨rfl, measureScene_reason f⟩
  have habsent : holds c .cameraTamper f m = false →
      Reported .cameraTamper d.tamper now c.policy (holds c .cameraTamper f m) [] {} := by
    intro hnot
    rw [hnot]
    exact .absent _ (hevent 0)
  unfold Detector.judgeTamper
  by_cases hquality : m.tamperQuality = .sufficient
  · rw [if_pos hquality]
    cases hchanged : (c.measureScene f).changed with
    | none =>
      simp only [hchanged]
      exact habsent (by simp [holds, hchanged])
    | some changed =>
      have hholds : holds c .cameraTamper f m = changed := by simp [holds, hquality, hchanged]
      simp only [hchanged]
      rw [hholds]
      exact .observe _ (hevent _)
  · rw [if_neg hquality]
    exact habsent (by simp [holds, hquality])

/-- What a call does to the confirmation of a kind: it observes that the condition is present, or it ends the run. -/
structure Judged (c : Calibration) (kind : CriticalKind) (d : Detector) (present : Bool) (now : Nat)
    (r : Outcome × Detector) : Prop where
  confirmation : r.2.confirmation kind = if present then ((d.confirmation kind).observe true now c.policy).2 else {}
  confirms : r.1.confirms kind = (present && ((d.confirmation kind).observe true now c.policy).1.emit)

theorem judge_judged (d : Detector) (f : GrayFrame) (now : Nat) (m : Described) (kind : CriticalKind) :
    Judged c kind d (holds c kind f m) now (d.judge c f now m) := by
  have hmovement := judgeMovement_reported (c := c) d f now m
  have htamper := judgeTamper_reported (c := c) d f now m
  cases kind with
  | serverMovement =>
    refine ⟨hmovement.confirmation, ?_⟩
    simp only [Outcome.confirms, Detector.judge, List.any_append, hmovement.confirms, htamper.confirms]
    simp [Detector.confirmation]
  | cameraTamper =>
    refine ⟨htamper.confirmation, ?_⟩
    simp only [Outcome.confirms, Detector.judge, List.any_append, hmovement.confirms, htamper.confirms]
    simp [Detector.confirmation]

theorem Judged.ended {r : Outcome × Detector} (hconf : r.2.movement = {} ∧ r.2.tamper = {})
    (hconfirms : r.1.confirms kind = false) : Judged c kind d false now r := by
  refine ⟨?_, hconfirms⟩
  cases kind with
  | serverMovement => exact hconf.1
  | cameraTamper => exact hconf.2

theorem holds_of_quality (h : m.movementQuality ≠ .sufficient ∧ m.tamperQuality ≠ .sufficient) :
    holds c kind f m = false := by
  cases kind <;> simp [holds, h.1, h.2]

theorem inspectRecorded_judged (d : Detector) (restarted gap : Bool) (f : GrayFrame) (now : Nat) (m : Described)
    (kind : CriticalKind) :
    Judged c kind d (!(restarted || gap || Detector.misshapen c f) && holds c kind f m) now
      (d.inspectRecorded c restarted gap f now m) := by
  unfold Detector.inspectRecorded
  by_cases hshape : Detector.misshapen c f = true
  · rw [if_pos hshape, hshape, Bool.or_true]
    exact .ended ⟨rfl, rfl⟩ rfl
  · rw [if_neg hshape]
    by_cases hbroken : (restarted || gap) = true
    · rw [if_pos hbroken, hbroken]
      exact .ended ⟨rfl, rfl⟩ rfl
    · rw [if_neg hbroken]
      simp only [Bool.not_eq_true] at hshape hbroken
      rw [hshape, hbroken]
      by_cases hquality : m.movementQuality ≠ .sufficient ∧ m.tamperQuality ≠ .sufficient
      · rw [if_pos hquality, holds_of_quality hquality]
        exact .ended ⟨rfl, rfl⟩ rfl
      · rw [if_neg hquality]
        exact judge_judged d f now m kind

theorem inspectDescribed_judged (d : Detector) (f : GrayFrame) (now : Nat) (m : Described) (kind : CriticalKind) :
    Judged c kind d (!refused c d f now && holds c kind f m) now (d.inspectDescribed c f now m) := by
  unfold Detector.inspectDescribed refused
  by_cases hexhausted : d.exhausted = true
  · rw [if_pos hexhausted, hexhausted]
    exact .ended ⟨rfl, rfl⟩ rfl
  · rw [if_neg hexhausted]
    by_cases hregressed : d.regressed f now = true
    · rw [if_pos hregressed, hregressed, Bool.or_true]
      exact .ended ⟨rfl, rfl⟩ rfl
    · rw [if_neg hregressed]
      simp only [Bool.not_eq_true] at hexhausted hregressed
      rw [hexhausted, hregressed]
      have hrestarted : ∀ p : Bool, (decide (d.streamId ≠ f.streamId) && p) = true →
          (!(false || false || decide (d.streamId ≠ f.streamId) || d.gap c now || Detector.misshapen c f) &&
            holds c kind f m) = false := by
        intro p hp
        rw [(Bool.and_eq_true_iff.mp hp).1]
        rfl
      by_cases hretired : (decide (d.streamId ≠ f.streamId) && decide (f.streamId ∈ d.retiredStreams)) = true
      · simp only [hretired, if_true, hrestarted _ hretired]
        exact .ended ⟨rfl, rfl⟩ rfl
      · by_cases hlimit : (decide (d.streamId ≠ f.streamId) &&
            decide (retiredStreamLimit ≤ d.retiredStreams.card)) = true
        · simp only [hretired, hlimit, if_true, hrestarted _ hlimit]
          exact .ended ⟨rfl, rfl⟩ rfl
        · simp only [hretired, hlimit]
          have hjudged := inspectRecorded_judged (c := c)
            (d.record (decide (d.streamId ≠ f.streamId)) (d.gap c now) f now) (decide (d.streamId ≠ f.streamId))
            (d.gap c now) f now m kind
          refine ⟨hjudged.confirmation.trans ?_, hjudged.confirms.trans ?_⟩
          · cases kind <;> rfl
          · cases kind <;> rfl

/-- The time of the sample of a call. -/
def time (c : Calibration) (e : SceneEvent) : Nat := ((sample c e).map Prod.snd).getD 0

theorem sourceLost_judged (d : Detector) (monotonicNs observedAt : Option Nat) (trusted : Option Bool)
    (kind : CriticalKind) : Judged c kind d false now (d.sourceLost c monotonicNs observedAt trusted) := by
  unfold Detector.sourceLost
  split
  · by_cases hexhausted : d.exhausted = true
    · rw [if_pos hexhausted]
      exact .ended ⟨rfl, rfl⟩ rfl
    · rw [if_neg hexhausted]
      split
      · exact .ended ⟨rfl, rfl⟩ rfl
      · refine .ended ⟨rfl, rfl⟩ ?_
        simp only [Outcome.confirms]
        split_ifs <;> simp
  · exact .ended ⟨rfl, rfl⟩ rfl
  · exact .ended ⟨rfl, rfl⟩ rfl

theorem consume_confirmation (d : Detector) (f : GrayFrame) (now : Nat) :
    (d.consume f now).movement = d.movement ∧ (d.consume f now).tamper = d.tamper := by
  unfold Detector.consume
  split_ifs <;> exact ⟨rfl, rfl⟩

/-- Every call observes that the condition of a kind is present, if it qualifies, or ends the run. -/
theorem step_judged (i : Call) (d : Detector) (kind : CriticalKind) :
    Judged c kind d (qualifies c kind (Event.of (step c) d i)) (time c (Event.of (step c) d i)) (step c i d) := by
  cases i with
  | sourceLost monotonicNs observedAt trusted => exact sourceLost_judged d monotonicNs observedAt trusted kind
  | inspect frame monotonicNs metadata =>
    simp only [qualifies, time, sample, described, Event.of, step, Detector.inspect]
    cases hsample : identify c frame monotonicNs with
    | none => exact .ended ⟨rfl, rfl⟩ rfl
    | some r =>
      obtain ⟨f, now⟩ := r
      cases hdescribed : metadata.describe with
      | none =>
        obtain ⟨hmovement, htamper⟩ := consume_confirmation d.interrupt f now
        exact .ended ⟨hmovement, htamper⟩ rfl
      | some m => exact inspectDescribed_judged d f now m kind

/-! ## Runs of qualifying calls -/

/-- The confirmation of a kind describes the run at the head of the history. -/
structure Tracks (c : Calibration) (kind : CriticalKind) (h : List SceneEvent) (d : Detector) : Prop where
  count : (d.confirmation kind).count = (run c kind h).length
  first : (d.confirmation kind).firstNs = (run c kind h).getLast?.map (time c)
  emitted : (d.confirmation kind).emitted = (run c kind h).any (emits kind)

theorem run_cons (c : Calibration) (kind : CriticalKind) (e : SceneEvent) (h : List SceneEvent) :
    run c kind (e :: h) = if qualifies c kind e then e :: run c kind h else [] := by
  unfold run
  rw [List.takeWhile_cons]

theorem first_cons (e : SceneEvent) (l : List SceneEvent) :
    (e :: l).getLast?.map (time c) = some ((l.getLast?.map (time c)).getD (time c e)) := by
  cases hl : l.getLast? with
  | none =>
    obtain rfl := List.getLast?_eq_none_iff.mp hl
    rfl
  | some x => simp [List.getLast?_cons, hl]

theorem Tracks.step (h : Tracks c kind earlier d) (i : Call) :
    Tracks c kind (Event.of (step c) d i :: earlier) (Scene.step c i d).2 := by
  obtain ⟨hconfirmation, hconfirms⟩ := step_judged (c := c) i d kind
  rw [show (Scene.step c i d).1.confirms kind = emits kind (Event.of (Scene.step c) d i) from rfl] at hconfirms
  generalize Event.of (Scene.step c) d i = e at hconfirmation hconfirms ⊢
  cases hqualifies : qualifies c kind e with
  | false =>
    simp only [hqualifies, Bool.false_eq_true, if_false] at hconfirmation
    refine ⟨?_, ?_, ?_⟩ <;> rw [hconfirmation, run_cons, hqualifies] <;> rfl
  | true =>
    simp only [hqualifies, if_true, Bool.true_and] at hconfirmation hconfirms
    refine ⟨?_, ?_, ?_⟩ <;> rw [hconfirmation, run_cons, hqualifies, if_pos rfl]
    · rw [List.length_cons, ← h.count]
      rfl
    · rw [first_cons, ← h.first]
      rfl
    · rw [List.any_cons, hconfirms, ← h.emitted]
      simp only [Confirmation.observe]
      cases (d.confirmation kind).emitted <;> simp

theorem tracks (hs : Reaches (step c) (Detector.init c) h d) (kind : CriticalKind) : Tracks c kind h d := by
  induction hs with
  | start => cases kind <;> exact ⟨rfl, rfl, rfl⟩
  | next hs i ih => exact ih.step i

/-! ## Watermarks -/

/-- What a call does to the streams of the detector. -/
structure Progress (d d' : Detector) : Prop where
  retired : d.retiredStreams ⊆ d'.retiredStreams
  exhausted : d.exhausted = true → d'.exhausted = true
  fresh : d.streamId ∉ d.retiredStreams → d'.streamId ∉ d'.retiredStreams

theorem Progress.of_same (hstream : d'.streamId = d.streamId) (hretired : d'.retiredStreams = d.retiredStreams)
    (hexhausted : d.exhausted = true → d'.exhausted = true) : Progress d d' :=
  ⟨hretired.ge, hexhausted, fun h => by rwa [hstream, hretired]⟩

theorem Progress.of_replaced (hstream : d'.streamId = f.streamId)
    (hretired : d'.retiredStreams = insert d.streamId d.retiredStreams)
    (hexhausted : d.exhausted = true → d'.exhausted = true) (hnew : d.streamId ≠ f.streamId)
    (hnot : f.streamId ∉ d.retiredStreams) : Progress d d' := by
  refine ⟨by rw [hretired]; exact Finset.subset_insert _ _, hexhausted, fun _ => ?_⟩
  rw [hstream, hretired, Finset.mem_insert, not_or]
  exact ⟨hnew.symm, hnot⟩

theorem consume_progress (d : Detector) (f : GrayFrame) (now : Nat) :
    Progress d (d.consume f now) ∧
      (d.streamId ≠ f.streamId → f.streamId ∉ d.retiredStreams →
        d.streamId ∈ (d.consume f now).retiredStreams ∨ (d.consume f now).exhausted = true) := by
  unfold Detector.consume
  by_cases hnew : d.streamId ≠ f.streamId
  · rw [if_pos hnew]
    by_cases hretired : f.streamId ∈ d.retiredStreams
    · rw [if_pos hretired]
      exact ⟨.of_same rfl rfl id, fun _ hnot => absurd hretired hnot⟩
    · rw [if_neg hretired]
      by_cases hlimit : retiredStreamLimit ≤ d.retiredStreams.card
      · rw [if_pos hlimit]
        exact ⟨.of_same rfl rfl fun _ => rfl, fun _ _ => .inr rfl⟩
      · rw [if_neg hlimit]
        exact ⟨.of_replaced rfl rfl id hnew hretired, fun _ _ => .inl (Finset.mem_insert_self _ _)⟩
  · rw [if_neg hnew]
    exact ⟨.of_same rfl rfl id, fun h => absurd h hnew⟩

theorem inspectRecorded_marks (d : Detector) (restarted gap : Bool) (f : GrayFrame) (now : Nat) (m : Described) :
    let d' := (d.inspectRecorded c restarted gap f now m).2
    d'.streamId = d.streamId ∧ d'.retiredStreams = d.retiredStreams ∧ d'.exhausted = d.exhausted ∧
      d'.lastSequence = d.lastSequence ∧ d'.lastNs = d.lastNs := by
  unfold Detector.inspectRecorded
  split_ifs <;> exact ⟨rfl, rfl, rfl, rfl, rfl⟩

/-- What `inspect` does to the streams, and where it leaves the watermarks of a sample that it did not refuse. -/
theorem inspectDescribed_progress (d : Detector) (f : GrayFrame) (now : Nat) (m : Described) :
    Progress d (d.inspectDescribed c f now m).2 ∧
      (d.exhausted = false → d.regressed f now = false → d.streamId ≠ f.streamId → f.streamId ∉ d.retiredStreams →
        d.streamId ∈ (d.inspectDescribed c f now m).2.retiredStreams ∨
          (d.inspectDescribed c f now m).2.exhausted = true) ∧
      (refused c d f now = false → (d.inspectDescribed c f now m).2.streamId = f.streamId ∧
        (d.inspectDescribed c f now m).2.lastSequence = f.sequence ∧
        (d.inspectDescribed c f now m).2.lastNs = now) := by
  unfold Detector.inspectDescribed refused
  by_cases hexhausted : d.exhausted = true
  · rw [if_pos hexhausted, hexhausted]
    exact ⟨.of_same rfl rfl id, nofun, nofun⟩
  · rw [if_neg hexhausted]
    by_cases hregressed : d.regressed f now = true
    · rw [if_pos hregressed, hregressed]
      exact ⟨.of_same rfl rfl id, fun _ => nofun, by simp⟩
    · rw [if_neg hregressed]
      simp only [Bool.not_eq_true] at hexhausted hregressed
      rw [hexhausted, hregressed]
      by_cases hnew : d.streamId ≠ f.streamId
      · simp only [hnew, not_false_eq_true, decide_true, Bool.true_and, ne_eq, decide_eq_true_eq]
        by_cases hretired : f.streamId ∈ d.retiredStreams
        · rw [if_pos hretired]
          exact ⟨.of_same rfl rfl id, fun _ _ _ hnot => absurd hretired hnot, by simp⟩
        · rw [if_neg hretired]
          by_cases hlimit : retiredStreamLimit ≤ d.retiredStreams.card
          · rw [if_pos hlimit]
            exact ⟨.of_same rfl rfl fun _ => rfl, fun _ _ _ _ => .inr rfl, by simp⟩
          · rw [if_neg hlimit]
            obtain ⟨hstream, hstreams, hexhausted', -, -⟩ :=
              inspectRecorded_marks (c := c) (d.record true (d.gap c now) f now) true (d.gap c now) f now m
            refine ⟨.of_replaced hstream hstreams (fun h => hexhausted'.trans h) hnew hretired, fun _ _ _ _ => .inl ?_,
              by simp⟩
            rw [hstreams]
            exact Finset.mem_insert_self _ _
      · simp only [hnew, decide_false, Bool.false_and, Bool.false_eq_true, if_false]
        obtain ⟨hstream, hstreams, hexhausted', hsequence, hns⟩ :=
          inspectRecorded_marks (c := c) (d.record false (d.gap c now) f now) false (d.gap c now) f now m
        refine ⟨.of_same (hstream.trans (not_not.mp hnew).symm) hstreams fun h => hexhausted'.trans h,
          fun _ _ h => h.elim, fun _ => ⟨hstream, hsequence, hns⟩⟩

theorem sourceLost_progress (d : Detector) (monotonicNs observedAt : Option Nat) (trusted : Option Bool) :
    Progress d (d.sourceLost c monotonicNs observedAt trusted).2 := by
  unfold Detector.sourceLost
  split
  · by_cases hexhausted : d.exhausted = true
    · rw [if_pos hexhausted]
      exact .of_same rfl rfl id
    · rw [if_neg hexhausted]
      split <;> exact .of_same rfl rfl id
  · exact .of_same rfl rfl id
  · exact .of_same rfl rfl id

theorem step_progress (i : Call) (d : Detector) : Progress d (step c i d).2 := by
  cases i with
  | sourceLost monotonicNs observedAt trusted => exact sourceLost_progress d monotonicNs observedAt trusted
  | inspect frame monotonicNs metadata =>
    simp only [step, Detector.inspect]
    split
    · exact .of_same rfl rfl id
    · rename_i f now hsample
      split
      · obtain ⟨⟨hretired, hexhausted, hfresh⟩, -⟩ := consume_progress d.interrupt f now
        exact ⟨hretired, hexhausted, hfresh⟩
      · exact (inspectDescribed_progress d f now _).1

/-- After a replacement the stream is retired, or nothing is evaluated any more. -/
theorem retired_of_replaces (hr : replaces c (Event.of (step c) d i) streamId = true) :
    streamId ∈ (step c i d).2.retiredStreams ∨ (step c i d).2.exhausted = true := by
  cases i with
  | sourceLost monotonicNs observedAt trusted => cases hr
  | inspect frame monotonicNs metadata =>
    simp only [replaces, sample, described, Event.of, step, Detector.inspect] at hr ⊢
    cases hsample : identify c frame monotonicNs with
    | none => simp [hsample] at hr
    | some r =>
      obtain ⟨f, now⟩ := r
      simp only [hsample] at hr
      obtain ⟨hleft, hhow⟩ := Bool.and_eq_true_iff.mp hr
      obtain ⟨hstreams, hnot⟩ := Bool.and_eq_true_iff.mp hleft
      obtain ⟨hcurrent, hnew⟩ := Bool.and_eq_true_iff.mp hstreams
      replace hnew := of_decide_eq_true hnew
      replace hnot := of_decide_eq_true hnot
      obtain rfl : d.streamId = streamId := of_decide_eq_true hcurrent
      cases hdescribed : metadata.describe with
      | none => exact (consume_progress d.interrupt f now).2 (Ne.symm hnew) hnot
      | some m =>
        have hopen : d.exhausted = false ∧ d.regressed f now = false := by simpa [hdescribed] using hhow
        exact (inspectDescribed_progress d f now m).2.1 hopen.1 hopen.2 (Ne.symm hnew) hnot

/-- A sample that is not refused comes after the last one recorded, on the same stream and soon enough. -/
theorem not_refused (h : refused c d f now = false) :
    d.exhausted = false ∧ d.streamId = f.streamId ∧ d.lastSequence < f.sequence ∧ d.lastNs < now ∧
      (0 ≤ d.lastNs → (now : Int) ≤ d.lastNs + c.policy.maximumGapNs) := by
  simp only [refused, Detector.regressed, Detector.gap, Bool.or_eq_false_iff, Bool.and_eq_false_iff,
    decide_eq_false_iff_not, not_le, not_lt, not_not] at h
  obtain ⟨⟨⟨⟨hexhausted, hns, hsequence⟩, hstream⟩, hgap⟩, -⟩ := h
  refine ⟨hexhausted, hstream, hsequence.resolve_left (not_not.mpr hstream), hns, fun hpos => ?_⟩
  have := hgap.resolve_left (not_lt.mpr hpos)
  omega

theorem marks_of_qualifies (hq : qualifies c kind (Event.of (step c) d i) = true) :
    ∃ f now, sample c (Event.of (step c) d i) = some (f, now) ∧ refused c d f now = false ∧
      (step c i d).2.streamId = f.streamId ∧ (step c i d).2.lastSequence = f.sequence ∧
      (step c i d).2.lastNs = now := by
  cases i with
  | sourceLost monotonicNs observedAt trusted => cases hq
  | inspect frame monotonicNs metadata =>
    simp only [qualifies, sample, described, Event.of, step, Detector.inspect] at hq ⊢
    cases hsample : identify c frame monotonicNs with
    | none => simp [hsample] at hq
    | some r =>
      obtain ⟨f, now⟩ := r
      cases hdescribed : metadata.describe with
      | none => simp [hsample, hdescribed] at hq
      | some m =>
        simp only [hsample, hdescribed, Bool.and_eq_true, Bool.not_eq_true'] at hq
        exact ⟨f, now, rfl, hq.1, (inspectDescribed_progress d f now m).2.2 hq.1⟩

/-! ## Histories -/

theorem follows (hs : Reaches (step c) (Detector.init c) (e :: h) d) (he : qualifies c kind e = true)
    (hi : qualifies c kind (Event.of (step c) d i) = true) : Follows c (Event.of (step c) d i) e := by
  obtain ⟨f, now, hsample, hrefused, -⟩ := marks_of_qualifies hi
  rw [hs.head] at he
  obtain ⟨f', now', hsample', -, hstream', hsequence', hns'⟩ := marks_of_qualifies he
  rw [← hs.head] at hsample'
  obtain ⟨-, hstream, hsequence, hns, hgap⟩ := not_refused hrefused
  have hd : d = (step c e.input e.before).2 := by
    rw [hs.after_eq, hs.head]
    rfl
  rw [← hd] at hstream' hsequence' hns'
  refine ⟨f, now, f', now', hsample, hsample', hstream.symm.trans hstream', hsequence' ▸ hsequence, ?_, ?_⟩
  · rw [hns'] at hns
    exact_mod_cast hns
  · rw [hns'] at hgap
    exact_mod_cast hgap (Int.natCast_nonneg _)

theorem run_chain (hs : Reaches (step c) (Detector.init c) h d) : (run c kind h).IsChain (Follows c) := by
  induction hs with
  | start => exact List.IsChain.nil
  | @next h s hs i ih =>
    rw [run_cons]
    split_ifs with hqualifies
    · cases h with
      | nil => exact List.IsChain.singleton _
      | cons e h =>
        rw [run_cons] at ih ⊢
        split_ifs at ih ⊢ with he
        · exact List.IsChain.cons_cons (follows hs he hqualifies) ih
        · exact List.IsChain.singleton _
    · exact List.IsChain.nil

theorem replaced_of_mem (hs : Reaches (step c) (Detector.init c) h d) (he : e ∈ h)
    (hr : replaces c e streamId = true) : streamId ∈ d.retiredStreams ∨ d.exhausted = true := by
  induction hs with
  | start => cases he
  | @next h s hs i ih =>
    rcases List.mem_cons.mp he with rfl | he
    · exact retired_of_replaces hr
    · have hprogress := step_progress (c := c) i s
      exact (ih he).imp (fun h => hprogress.retired h) hprogress.exhausted

theorem fresh (hs : Reaches (step c) (Detector.init c) h d) : d.streamId ∉ d.retiredStreams :=
  hs.invariant (P := fun d => d.streamId ∉ d.retiredStreams) (Finset.notMem_empty _)
    fun i d => (step_progress i d).fresh

theorem sample_of_qualifies (hq : qualifies c kind e = true) : ∃ f, sample c e = some (f, time c e) := by
  unfold qualifies at hq
  unfold time
  cases hsample : sample c e with
  | none => simp [hsample] at hq
  | some r => exact ⟨r.1, rfl⟩

theorem spans_cons {l : List SceneEvent} (hl : ∀ x ∈ e :: l, qualifies c kind x = true) :
    spans c (e :: l) = decide ((l.getLast?.map (time c)).getD (time c e) + c.policy.confirmationNs ≤ time c e) := by
  obtain ⟨f, hsample⟩ := sample_of_qualifies (hl e List.mem_cons_self)
  obtain ⟨f', hlast⟩ := sample_of_qualifies (hl _ (List.getLast_mem (List.cons_ne_nil e l)))
  have hfirst := first_cons (c := c) e l
  rw [List.getLast?_eq_some_getLast (List.cons_ne_nil e l), Option.map_some] at hfirst
  simp only [spans, List.head?_cons, Option.bind_some, hsample,
    List.getLast?_eq_some_getLast (List.cons_ne_nil e l), hlast, Option.some.inj hfirst]

/-- In every sequence of calls, and for each kind: a call emits a confirmation exactly if the maximal run of consecutive
qualifying calls that ends with it has the frames and the time of a confirmation and no earlier call of the run emitted
one. Each sample of the run continues the one before it, on one stream. No sample of a stream that an earlier one
replaced qualifies. -/
theorem confirmation_runs (hs : Reaches (step c) (Detector.init c) (e :: earlier) d) (kind : CriticalKind) :
    (emits kind e = true ↔
        c.policy.confirmationFrames ≤ (run c kind (e :: earlier)).length ∧ spans c (run c kind (e :: earlier)) = true ∧
          ∀ x ∈ (run c kind (e :: earlier)).tail, emits kind x = false) ∧
      (run c kind (e :: earlier)).IsChain (Follows c) ∧
      ∀ x ∈ earlier, ∀ streamId, replaces c x streamId = true →
        (∃ f now, sample c e = some (f, now) ∧ f.streamId = streamId) → qualifies c kind e = false := by
  have hbefore := hs.of_cons
  have htracks := tracks hbefore kind
  obtain ⟨-, hconfirms⟩ := step_judged (c := c) e.input e.before kind
  rw [show (step c e.input e.before).1.confirms kind = emits kind (Event.of (step c) e.before e.input) from rfl,
    ← hs.head] at hconfirms
  refine ⟨?_, run_chain hs, ?_⟩
  · rw [hconfirms, run_cons]
    cases hqualifies : qualifies c kind e with
    | false =>
      have hseveral := c.policy.several
      constructor
      · nofun
      · rintro ⟨hlength, -⟩
        simp at hlength
        omega
    | true =>
      have hrun : ∀ x ∈ e :: run c kind earlier, qualifies c kind x = true := by
        intro x hx
        rcases List.mem_cons.mp hx with rfl | hx
        · exact hqualifies
        · exact List.mem_takeWhile_imp hx
      rw [if_pos rfl, spans_cons hrun, List.length_cons, List.tail_cons, ← htracks.count, ← htracks.first]
      have hemitted : (e.before.confirmation kind).emitted = false ↔ ∀ x ∈ run c kind earlier, emits kind x = false := by
        rw [htracks.emitted, List.any_eq_false]
        simp
      rw [← hemitted]
      simp [Confirmation.observe, and_assoc]
  · rintro x hx streamId hr ⟨f, now, hsample, rfl⟩
    rw [← Bool.not_eq_true]
    intro hqualifies
    rw [hs.head] at hqualifies hsample
    obtain ⟨f', now', hsample', hrefused, -⟩ := marks_of_qualifies hqualifies
    obtain ⟨rfl, rfl⟩ := Prod.mk.inj (Option.some.inj (hsample.symm.trans hsample'))
    obtain ⟨hexhausted, hstream, -⟩ := not_refused hrefused
    rcases replaced_of_mem hbefore hx hr with hretired | hlatched
    · exact fresh hbefore (hstream ▸ hretired)
    · simp [hexhausted] at hlatched

/-! ## A confirmed movement -/

/-- A frame of seven by seven pixels of the only source. -/
def square (sequence : Nat) (pixels : List Nat) (h : pixels.length = 49) : GrayFrame where
  sourceId := 0
  streamId := 0
  sequence := sequence
  width := 7
  height := 7
  pixels := pixels
  size := h

/-- The pixels at the calibration. -/
def still : List Nat :=
  [0, 37, 74, 111, 148, 185, 222, 19, 56, 93, 130, 167, 204, 241,
    38, 75, 112, 149, 186, 223, 9, 57, 94, 131, 200, 10, 242, 28,
    76, 113, 150, 90, 150, 10, 47, 95, 132, 169, 206, 243, 29, 66,
    114, 151, 188, 225, 11, 48, 85]

/-- The same scene, with the four pixels of the region of interest one column to the right. -/
def moved : List Nat :=
  [0, 37, 74, 111, 148, 185, 222, 19, 56, 93, 130, 167, 204, 241,
    38, 75, 112, 149, 186, 223, 9, 57, 94, 131, 168, 200, 10, 28,
    76, 113, 150, 187, 90, 150, 47, 95, 132, 169, 206, 243, 29, 66,
    114, 151, 188, 225, 11, 48, 85]

/-- The calibration of the scene. -/
def desk : Calibration where
  sourceId := 0
  polygon := [(3, 3), (4, 3), (4, 4), (3, 4)]
  reference := square 0 still rfl
  policy :=
    { globalSearchPixels := 1, roiSearchPixels := 1, globalQuarterTurns := [0], roiQuarterTurns := [0]
      maximumMatchError := 1 / 10, minimumMatchMargin := 1 / 100, minimumCoverage := 1 / 2
      movementPixels := 1, cameraShiftPixels := 1, darkPixelCeiling := 0, cameraDarkFraction := 1 / 2
      confirmationFrames := 2, confirmationNs := 10, maximumGapNs := 20, lossCorrelationNs := 20, several := le_rfl }

/-- A sample of the moved scene. -/
def sampled (sequence now : Nat) : Call :=
  .inspect (some (square sequence moved rfl)) (some now) ⟨some now, some .sufficient, some .sufficient, some none⟩

theorem confirmation_runs_moved :
    emits .serverMovement (Event.of (step desk) (perform (step desk) (.init desk) [sampled 1 10]).2 (sampled 2 20)) =
        true ∧
      (run desk .serverMovement (perform (step desk) (.init desk) [sampled 1 10, sampled 2 20]).1).length = 2 := by
  have hemits : emits .serverMovement
      (Event.of (step desk) (perform (step desk) (.init desk) [sampled 1 10]).2 (sampled 2 20)) = true := by
    decide +kernel
  have hruns := ((confirmation_runs (.perform (step desk) (.init desk) [sampled 1 10, sampled 2 20])
    .serverMovement).1.mp hemits).1
  exact ⟨hemits, le_antisymm (List.takeWhile_prefix _).length_le hruns⟩

end Sentinel.Detection.Scene
