import Sentinel.Detection.Proofs.SceneProofs

/-!
# Source losses

A tracked shift is that of a call of the history since which no sample matched the background or came after a gap. A
source loss is reported once in a shift episode, and not after a confirmation of the shift. A frame that is consumed because
of its metadata replaces the stream but leaves the tracked shift.
-/

namespace Sentinel.Detection.Scene

variable {c : Calibration} {d : Detector} {e : SceneEvent} {h later earlier : List SceneEvent} {f : GrayFrame} {now : Nat}
  {m : Described}

/-! ## What a call does to the tracked shift -/

/-- What a call does to the tracked shift and to whether it was reported. -/
inductive Stepped (c : Calibration) (e : SceneEvent) : Prop
  | kept (hshift : e.after.lastSceneShift = e.before.lastSceneShift) (hreported : e.after.shiftReported = e.before.shiftReported)
      (hloss : lossEmits e = false) (hshifts : shifts e = false) (hmatches : matchesBackground e = false)
      (hgap : acceptsGap c e = false) (hexhausted : e.before.exhausted = true → e.after.exhausted = true)
      (hstream : consumes c e = false → e.after.streamId = e.before.streamId)
  | dropped (hshift : e.after.lastSceneShift = none) (hreported : e.after.shiftReported = e.before.shiftReported)
      (hloss : lossEmits e = false) (hshifts : shifts e = false)
  | shifted (f : GrayFrame) (now : Nat) (confidence : ℚ) (hsample : sample c e = some (f, now)) (hshifts : shifts e = true)
      (hshift : e.after.lastSceneShift = some (now, confidence)) (hstream : e.after.streamId = f.streamId)
      (hreported : e.after.shiftReported =
        (e.before.shiftReported && e.before.lastSceneShift.isSome || emits .cameraTamper e))
      (hloss : lossEmits e = false)
  | lost (now observedAt since : Nat) (confidence : ℚ)
      (hinput : e.input = .sourceLost (some now) (some observedAt) (some true)) (hopen : e.before.exhausted = false)
      (htracked : e.before.lastSceneShift = some (since, confidence)) (hsince : since ≤ now)
      (hlimit : now ≤ since + c.policy.lossCorrelationNs) (hunreported : e.before.shiftReported = false)
      (hreported : e.after.shiftReported = true) (hshift : e.after.lastSceneShift = e.before.lastSceneShift)
      (hmatches : matchesBackground e = false) (hshifts : shifts e = false)
      (hstream : e.after.streamId = e.before.streamId)

/-- The three outcomes of a measured scene: a global shift, a match of the background, and neither. -/
theorem measureScene_cases (f : GrayFrame) :
    let s := c.measureScene f
    s.globalShift = true ∧ s.reason = .globalSceneShift ∧ s.changed = some true ∨
      s.globalShift = false ∧ s.reason = .backgroundMatches ∧ s.changed = some false ∨
      s.globalShift = false ∧ s.reason ≠ .globalSceneShift ∧ s.reason ≠ .backgroundMatches ∧ s.changed ≠ some false := by
  unfold Calibration.measureScene
  dsimp only
  generalize (if ((c.globalMatch f).filter c.goodMatch).isSome then 0 else dissimilarity c.reference f c.background) = difference
  split
  · simp
  · split_ifs
    · simp
    · simp
    · split <;> simp

/-- What the evaluation of a sample does to the tracked shift. -/
inductive Evaluated (d : Detector) (now : Nat) : Outcome × Detector → Prop
  | kept (o : SceneObservation) (d' : Detector) (hshift : d'.lastSceneShift = d.lastSceneShift)
      (hreported : d'.shiftReported = d.shiftReported)
      (hreason : o.tamperReason ≠ .globalSceneShift ∧ o.tamperReason ≠ .backgroundMatches) : Evaluated d now (.observed o, d')
  | matched (o : SceneObservation) (d' : Detector) (hshift : d'.lastSceneShift = none)
      (hreported : d'.shiftReported = d.shiftReported) (hreason : o.tamperReason = .backgroundMatches) :
    Evaluated d now (.observed o, d')
  | shifted (o : SceneObservation) (d' : Detector) (confidence : ℚ) (hshift : d'.lastSceneShift = some (now, confidence))
      (hreported : d'.shiftReported =
        (d.shiftReported && d.lastSceneShift.isSome || (Outcome.observed o).confirms .cameraTamper))
      (hreason : o.tamperReason = .globalSceneShift) : Evaluated d now (.observed o, d')

theorem judge_evaluated (d : Detector) (f : GrayFrame) (now : Nat) (m : Described) : Evaluated d now (d.judge c f now m) := by
  have hconfirms := (judge_judged (c := c) d f now m .cameraTamper).confirms
  by_cases hquality : m.tamperQuality = .sufficient
  · rcases measureScene_cases (c := c) f with ⟨hglobal, hreason, hchanged⟩ | ⟨hglobal, hreason, hchanged⟩ | hneither
    · have hholds : holds c .cameraTamper f m = true := by simp [holds, hquality, hchanged]
      rw [hholds, Bool.true_and] at hconfirms
      refine .shifted _ _ (((c.measureScene f).confidence).getD 0) ?_ ?_ ?_
      · simp [Detector.judgeTamper, hquality, hchanged, Detector.trackedShift, hglobal]
      · rw [show (Outcome.observed _).confirms .cameraTamper = _ from hconfirms]
        simp [Detector.judgeTamper, hquality, hchanged, hglobal, Detector.confirmation]
      · simp [Detector.judgeTamper, hquality, hchanged, hreason]
    · refine .matched _ _ ?_ ?_ ?_ <;>
        simp [Detector.judgeTamper, hquality, hchanged, hreason, Detector.trackedShift, hglobal]
    · obtain ⟨hglobal, hshift, hmatch, hchanged⟩ := hneither
      refine .kept _ _ ?_ ?_ ?_ <;>
        cases hc : (c.measureScene f).changed <;>
          simp_all [Detector.judgeTamper, Detector.trackedShift]
  · refine .kept _ _ ?_ ?_ ?_ <;> simp [Detector.judgeTamper, hquality]

theorem inspectDescribed_stepped {frame : Option GrayFrame} {monotonicNs : Option Nat} {metadata : Metadata}
    (hsample : identify c frame monotonicNs = some (f, now)) (hdescribed : metadata.describe = some m) :
    Stepped c ⟨d, .inspect frame monotonicNs metadata, (d.inspectDescribed c f now m).1, (d.inspectDescribed c f now m).2⟩ := by
  have hgap (r : Outcome × Detector) : acceptsGap c ⟨d, .inspect frame monotonicNs metadata, r.1, r.2⟩ =
      (!(d.exhausted || d.regressed f now) && d.gap c now && (decide (d.streamId = f.streamId) ||
        decide (f.streamId ∉ d.retiredStreams) && decide (d.retiredStreams.card < retiredStreamLimit))) := by
    simp [acceptsGap, sample, described, hsample, hdescribed]
  unfold Detector.inspectDescribed
  by_cases hexhausted : d.exhausted = true
  · rw [if_pos hexhausted]
    exact .kept rfl rfl rfl rfl rfl (by rw [hgap]; simp [hexhausted]) id fun _ => rfl
  rw [if_neg hexhausted]
  by_cases hregressed : d.regressed f now = true
  · rw [if_pos hregressed]
    exact .kept rfl rfl rfl rfl rfl (by rw [hgap]; simp [hregressed]) id fun _ => rfl
  rw [if_neg hregressed]
  dsimp only
  by_cases hretired : (decide (d.streamId ≠ f.streamId) && decide (f.streamId ∈ d.retiredStreams)) = true
  · rw [if_pos hretired]
    refine .kept rfl rfl rfl rfl rfl ?_ id fun _ => rfl
    rw [hgap]
    simp_all
  rw [if_neg hretired]
  by_cases hlimit : (decide (d.streamId ≠ f.streamId) && decide (retiredStreamLimit ≤ d.retiredStreams.card)) = true
  · rw [if_pos hlimit]
    refine .kept rfl rfl rfl rfl rfl ?_ (fun _ => rfl) fun _ => rfl
    rw [hgap]
    simp_all
  rw [if_neg hlimit]
  unfold Detector.inspectRecorded
  by_cases hbroken : (decide (d.streamId ≠ f.streamId) || d.gap c now) = true
  · have hshift : (d.record (decide (d.streamId ≠ f.streamId)) (d.gap c now) f now).lastSceneShift = none := by
      unfold Detector.record
      exact if_pos hbroken
    by_cases hshape : Detector.misshapen c f = true
    · rw [if_pos hshape]
      exact .dropped hshift rfl rfl rfl
    · rw [if_neg hshape, if_pos hbroken]
      exact .dropped hshift rfl rfl rfl
  · obtain ⟨hstream, hcontinuous⟩ : d.streamId = f.streamId ∧ d.gap c now = false := by simpa using hbroken
    set d₁ := d.record (decide (d.streamId ≠ f.streamId)) (d.gap c now) f now with hd₁
    have hshift : d₁.lastSceneShift = d.lastSceneShift := if_neg hbroken
    replace hgap (r : Outcome × Detector) : acceptsGap c ⟨d, .inspect frame monotonicNs metadata, r.1, r.2⟩ = false := by
      rw [hgap, hcontinuous]
      simp
    by_cases hshape : Detector.misshapen c f = true
    · rw [if_pos hshape]
      exact .kept hshift rfl rfl rfl rfl (hgap (_, _)) id fun _ => hstream.symm
    rw [if_neg hshape, if_neg hbroken]
    by_cases hquality : m.movementQuality ≠ .sufficient ∧ m.tamperQuality ≠ .sufficient
    · rw [if_pos hquality]
      exact .kept hshift rfl rfl rfl rfl (hgap (_, _)) id fun _ => hstream.symm
    rw [if_neg hquality]
    have hevaluated := judge_evaluated (c := c) d₁ f now m
    have hstream' : (d₁.judge c f now m).2.streamId = f.streamId := rfl
    have hexhausted' : (d₁.judge c f now m).2.exhausted = d.exhausted := rfl
    generalize d₁.judge c f now m = r at hevaluated hstream' hexhausted' ⊢
    cases hevaluated with
    | kept o d' hshift' hreported hreason =>
      exact .kept (hshift'.trans hshift) hreported rfl (by simp [shifts, tamperReason, hreason.1])
        (by simp [matchesBackground, tamperReason, hreason.2]) (hgap (_, _)) (fun h => hexhausted'.trans h)
        fun _ => hstream'.trans hstream.symm
    | matched o d' hshift' hreported hreason =>
      exact .dropped hshift' hreported rfl (by simp [shifts, tamperReason, hreason])
    | shifted o d' confidence hshift' hreported hreason =>
      refine .shifted f now confidence hsample (by simp [shifts, tamperReason, hreason]) hshift' hstream' ?_ rfl
      exact hshift ▸ hreported

theorem consume_shift (d : Detector) (f : GrayFrame) (now : Nat) :
    (d.consume f now).lastSceneShift = d.lastSceneShift ∧ (d.consume f now).shiftReported = d.shiftReported := by
  unfold Detector.consume
  split_ifs <;> exact ⟨rfl, rfl⟩

theorem sourceLost_stepped (monotonicNs observedAt : Option Nat) (trusted : Option Bool) :
    Stepped c ⟨d, .sourceLost monotonicNs observedAt trusted, (d.sourceLost c monotonicNs observedAt trusted).1,
      (d.sourceLost c monotonicNs observedAt trusted).2⟩ := by
  unfold Detector.sourceLost
  split
  · rename_i now observedAt trusted
    by_cases hexhausted : d.exhausted = true
    · rw [if_pos hexhausted]
      exact .kept rfl rfl rfl rfl rfl rfl id fun _ => rfl
    rw [if_neg hexhausted]
    split
    · exact .kept rfl rfl rfl rfl rfl rfl id fun _ => rfl
    · rename_i since confidence hfilter
      obtain ⟨htracked, hcorrelated⟩ := Option.filter_eq_some_iff.1 hfilter
      simp only [Bool.and_eq_true, decide_eq_true_eq] at hcorrelated
      obtain ⟨⟨⟨rfl, _⟩, hsince⟩, hlimit⟩ := hcorrelated
      cases hreported : d.shiftReported with
      | true => exact .kept rfl hreported.symm rfl rfl rfl rfl id fun _ => rfl
      | false =>
        exact .lost now observedAt since confidence rfl (Bool.not_eq_true _ ▸ hexhausted) htracked hsince hlimit hreported rfl rfl
          rfl rfl rfl
  · exact .kept rfl rfl rfl rfl rfl rfl id fun _ => rfl
  · exact .kept rfl rfl rfl rfl rfl rfl id fun _ => rfl

theorem step_stepped (i : Call) (d : Detector) : Stepped c (Event.of (step c) d i) := by
  cases i with
  | sourceLost monotonicNs observedAt trusted => exact sourceLost_stepped monotonicNs observedAt trusted
  | inspect frame monotonicNs metadata =>
    simp only [Event.of, step, Detector.inspect]
    cases hsample : identify c frame monotonicNs with
    | none => exact .kept rfl rfl rfl rfl rfl (by simp [acceptsGap, sample, hsample]) id fun _ => rfl
    | some r =>
      obtain ⟨f, now⟩ := r
      cases hdescribed : metadata.describe with
      | none =>
        obtain ⟨hshift, hreported⟩ := consume_shift d.interrupt f now
        refine .kept hshift hreported rfl rfl rfl (by simp [acceptsGap, described, sample, hsample, hdescribed])
          (consume_progress d.interrupt f now).1.exhausted ?_
        simp [consumes, sample, described, hsample, hdescribed]
      | some m => exact inspectDescribed_stepped hsample hdescribed

/-! ## Whole runs -/

/-- A call through which a tracked shift stays live. -/
structure Live (c : Calibration) (e : SceneEvent) : Prop where
  unmatched : matchesBackground e = false
  continuous : acceptsGap c e = false
  admits : e.after.exhausted = false
  stream : consumes c e = false → e.after.streamId = e.before.streamId

/-- A call of the history measured a global shift at the time `since`, and the shift stayed live after it: on the stream
`streamId`, unless a frame that was consumed because of its metadata has replaced the stream. -/
def LiveSince (c : Calibration) (h : List SceneEvent) (since streamId : Nat) : Prop :=
  ∃ later x earlier f, h = later ++ x :: earlier ∧ shifts x = true ∧ sample c x = some (f, since) ∧ (∀ y ∈ later, Live c y) ∧
    ((∀ y ∈ later, consumes c y = true → y.after.streamId = y.before.streamId) → streamId = f.streamId)

theorem LiveSince.cons {since : Nat} (hlive : LiveSince c h since e.before.streamId) (he : Live c e) :
    LiveSince c (e :: h) since e.after.streamId := by
  obtain ⟨later, x, earlier, f, rfl, hx, hsample, hlater, hstream⟩ := hlive
  refine ⟨e :: later, x, earlier, f, rfl, hx, hsample, List.forall_mem_cons.2 ⟨he, hlater⟩, ?_⟩
  intro hkeeps
  obtain ⟨he', hkeeps⟩ := List.forall_mem_cons.1 hkeeps
  have hsame : e.after.streamId = e.before.streamId := by
    cases hconsumes : consumes c e with
    | true => exact he' hconsumes
    | false => exact he.stream hconsumes
  exact hsame.trans (hstream hkeeps)

theorem liveSince (hs : Reaches (step c) (Detector.init c) h d) (hopen : d.exhausted = false) {since : Nat} {confidence : ℚ}
    (htracked : d.lastSceneShift = some (since, confidence)) : LiveSince c h since d.streamId := by
  induction hs generalizing since confidence with
  | start => cases htracked
  | next hs i ih =>
    rename_i h d
    have hexhausted : d.exhausted = false := by
      cases hd : d.exhausted with
      | false => rfl
      | true => cases ((step_progress (c := c) i d).exhausted hd).symm.trans hopen
    cases step_stepped (c := c) i d with
    | kept hshift _ _ _ hmatches hgap _ hstream =>
      have hbefore : LiveSince c h since d.streamId := ih hexhausted (hshift ▸ htracked)
      exact LiveSince.cons hbefore ⟨hmatches, hgap, hopen, hstream⟩
    | dropped hshift _ _ _ => cases hshift.symm.trans htracked
    | shifted f now confidence hsample hshifts hshift hstream _ _ =>
      cases hshift.symm.trans htracked
      exact ⟨[], _, _, f, rfl, hshifts, hsample, List.forall_mem_nil _, fun _ => hstream⟩
    | lost _ _ _ _ hinput _ _ _ _ _ _ hshift hmatches _ hstream =>
      have hbefore : LiveSince c h since d.streamId := ih hexhausted (hshift ▸ htracked)
      have hgap : acceptsGap c (Event.of (step c) d i) = false := by simp only [acceptsGap, sample, hinput]
      exact LiveSince.cons hbefore ⟨hmatches, hgap, hopen, fun _ => hstream⟩

/-- A call that does not start an episode keeps a reported shift so, and does not report it again. -/
theorem Stepped.reported (he : Stepped c e) (hstarts : starts e = false) (hreported : e.before.shiftReported = true) :
    e.after.shiftReported = true ∧ lossEmits e = false := by
  cases he with
  | kept _ hkept hloss | dropped _ hkept hloss => exact ⟨hkept.trans hreported, hloss⟩
  | shifted _ _ _ _ hshifts _ _ hkept hloss =>
    refine ⟨?_, hloss⟩
    have htracked : e.before.lastSceneShift.isSome = true := by
      simpa [starts, hshifts, Option.isSome_iff_ne_none] using hstarts
    rw [hkept, hreported, htracked]
    rfl
  | lost _ _ _ _ _ _ _ _ _ hunreported => cases hreported.symm.trans hunreported

theorem reported_since (hs : Reaches (step c) (Detector.init c) (later ++ e :: earlier) d) (he : e.after.shiftReported = true)
    (hstarts : ∀ x ∈ later, starts x = false) : d.shiftReported = true ∧ ∀ x ∈ later, lossEmits x = false := by
  induction later generalizing d with
  | nil => exact ⟨hs.after_eq ▸ he, List.forall_mem_nil _⟩
  | cons x later ih =>
    obtain ⟨hx, hlater⟩ := List.forall_mem_cons.1 hstarts
    obtain ⟨hreported, hlosses⟩ := ih hs.of_cons hlater
    have hstep := step_stepped (c := c) x.input x.before
    rw [← hs.head] at hstep
    obtain ⟨hafter, hloss⟩ := hstep.reported hx hreported
    exact ⟨hs.after_eq ▸ hafter, List.forall_mem_cons.2 ⟨hloss, hlosses⟩⟩

theorem Stepped.lossEmits (he : Stepped c e) (hloss : Scene.lossEmits e = true) :
    e.before.shiftReported = false ∧ e.after.shiftReported = true ∧ e.before.exhausted = false ∧
      ∃ now observedAt since confidence, e.input = .sourceLost (some now) (some observedAt) (some true) ∧
        e.before.lastSceneShift = some (since, confidence) ∧ since ≤ now ∧ now ≤ since + c.policy.lossCorrelationNs := by
  cases he with
  | kept _ _ hnone | dropped _ _ hnone | shifted _ _ _ _ _ _ _ _ hnone => cases hnone.symm.trans hloss
  | lost now observedAt since confidence hinput hopen htracked hsince hlimit hunreported hreported =>
    exact ⟨hunreported, hreported, hopen, now, observedAt, since, confidence, hinput, htracked, hsince, hlimit⟩

/-- A stretch of a run without a start of an episode emits at most one loss. -/
theorem losses_between (hs : Reaches (step c) (Detector.init c) (later ++ earlier) d)
    (hstarts : ∀ x ∈ later, starts x = false) : later.countP lossEmits ≤ 1 := by
  induction later generalizing d with
  | nil => exact Nat.zero_le _
  | cons e later ih =>
    obtain ⟨_, hlater⟩ := List.forall_mem_cons.1 hstarts
    rw [List.countP_cons]
    by_cases hloss : lossEmits e = true
    · have hnone : later.countP lossEmits = 0 := by
        rw [List.countP_eq_zero]
        intro x hx hlost
        obtain ⟨newer, older, rfl⟩ := List.append_of_mem hx
        have hs' : Reaches (step c) (Detector.init c) ((e :: newer) ++ x :: (older ++ earlier)) d := by simpa using hs
        have hstep := step_stepped (c := c) x.input x.before
        rw [← hs'.event.2] at hstep
        have hnewer : ∀ y ∈ e :: newer, starts y = false := by
          intro y hy
          refine hstarts y ?_
          rcases List.mem_cons.1 hy with rfl | hy <;> simp [*]
        have hnot := (reported_since hs' (hstep.lossEmits hlost).2.1 hnewer).2 e List.mem_cons_self
        cases hnot.symm.trans hloss
      rw [hnone, if_pos hloss]
    · rw [if_neg hloss]
      exact ih hs.of_cons hlater

/-- A source loss confirms a tampering only for a live shift that was not reported: the signal was trusted, and the shift was
measured by an earlier call, not long before, since which it stayed live and, unless a frame that was consumed because of its
metadata has replaced the stream, on the current stream. Between two starts of an episode at most one loss is emitted, and
none after a confirmation of the shift. -/
theorem loss_confirms_live_shift (hs : Reaches (step c) (Detector.init c) h d) :
    (∀ later e earlier, h = later ++ e :: earlier → lossEmits e = true →
      ∃ now observedAt, e.input = .sourceLost (some now) (some observedAt) (some true) ∧
        ∃ since, LiveSince c earlier since e.before.streamId ∧ since ≤ now ∧ now ≤ since + c.policy.lossCorrelationNs) ∧
    (∀ later episode earlier, h = later ++ (episode ++ earlier) → (∀ x ∈ episode, starts x = false) →
      episode.countP lossEmits ≤ 1) ∧
    ∀ later episode e earlier, h = later ++ (episode ++ e :: earlier) → (∀ x ∈ episode, starts x = false) →
      shifts e = true → emits .cameraTamper e = true → ∀ x ∈ episode, lossEmits x = false := by
  refine ⟨?_, ?_, ?_⟩
  · rintro later e earlier rfl hloss
    obtain ⟨hearlier, he⟩ := hs.event
    have hstep := step_stepped (c := c) e.input e.before
    rw [← he] at hstep
    obtain ⟨_, _, hopen, now, observedAt, since, confidence, hinput, htracked, hsince, hlimit⟩ := hstep.lossEmits hloss
    exact ⟨now, observedAt, hinput, since, liveSince hearlier hopen htracked, hsince, hlimit⟩
  · rintro later episode earlier rfl hstarts
    obtain ⟨_, hepisode⟩ := hs.of_append
    exact losses_between hepisode hstarts
  · rintro later episode e earlier rfl hstarts hshifts hemits
    obtain ⟨_, hepisode⟩ := hs.of_append
    have hstep := step_stepped (c := c) e.input e.before
    rw [← hepisode.event.2] at hstep
    have hreported : e.after.shiftReported = true := by
      cases hstep with
      | shifted _ _ _ _ _ _ _ hreported _ => rw [hreported, hemits, Bool.or_true]
      | kept _ _ _ hnone | dropped _ _ _ hnone | lost _ _ _ _ _ _ _ _ _ _ _ _ _ hnone => cases hnone.symm.trans hshifts
    exact (reported_since hepisode hreported hstarts).2

/-- The scene of the calibration, one column to the right. -/
def redirected : List Nat :=
  [3, 0, 37, 74, 111, 148, 185, 100, 19, 56, 93, 130, 167, 204,
    200, 38, 75, 112, 149, 186, 223, 150, 57, 94, 131, 200, 10, 242,
    20, 76, 113, 150, 90, 150, 10, 90, 95, 132, 169, 206, 243, 29,
    180, 114, 151, 188, 225, 11, 48]

/-- A sample of the redirected camera. -/
def redirection (sequence now : Nat) : Call :=
  .inspect (some (square sequence redirected rfl)) (some now) ⟨some now, some .sufficient, some .sufficient, some none⟩

/-- A trusted loss of the source. -/
def loss (now : Nat) : Call := .sourceLost (some now) (some now) (some true)

/-- A frame of another stream, without a time. -/
def refusedFrame (now : Nat) : Call :=
  .inspect (some { square 1 redirected rfl with streamId := 1 }) (some now) ⟨none, some .sufficient, some .sufficient, some none⟩

theorem loss_confirms_live_shift_redirected :
    let run := (perform (step desk) (.init desk) [redirection 1 10, loss 15]).1
    ∃ e earlier, run = e :: earlier ∧ lossEmits e = true ∧
      ∃ since, LiveSince desk earlier since e.before.streamId ∧ since ≤ 15 := by
  have hemits : lossEmits (Event.of (step desk) (perform (step desk) (.init desk) [redirection 1 10]).2 (loss 15)) = true := by
    decide +kernel
  obtain ⟨now, observedAt, hinput, since, hlive, hsince, _⟩ :=
    (loss_confirms_live_shift (.perform (step desk) (.init desk) [redirection 1 10, loss 15])).1 [] _ _ rfl hemits
  cases hinput
  exact ⟨_, _, rfl, hemits, since, hlive, hsince⟩

/-- A loss is emitted for a shift of a stream that a consumed frame replaced, and a shift is confirmed after its loss was
emitted in the same episode. -/
theorem loss_confirms_replaced_shift :
    let replaced := (perform (step desk) (.init desk) [redirection 1 10, refusedFrame 20, loss 25]).1
    let run := (perform (step desk) (.init desk) [redirection 1 10, loss 15, redirection 2 20, redirection 3 30]).1
    replaced.map (fun e => (lossEmits e, e.before.streamId)) = [(true, 1), (false, 0), (false, 0)] ∧
      (∀ e ∈ replaced, shifts e = true → (sample desk e).map (fun s => s.1.streamId) = some 0) ∧
      run.map starts = [false, false, false, true] ∧ run.map lossEmits = [false, false, true, false] ∧
      run.map shifts = [true, true, false, true] ∧ run.map (emits .cameraTamper) = [true, false, false, false] := by
  decide +kernel

end Sentinel.Detection.Scene
