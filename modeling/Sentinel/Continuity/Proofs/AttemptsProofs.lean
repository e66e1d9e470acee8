import Sentinel.Continuity.Attempts

/-!
# The staircase never hides a clock regression

Every attempt is dominated by a step: one of its sequence or a later one, and of its time or a later one. The merge at the
bound keeps this, so for every later watermark the latest time after it is not before the true one.
-/

namespace Sentinel.Continuity

instance : Std.Total fun a b : Nat × Nat => pairLe a b = true := ⟨fun a b => by simp only [pairLe]; grind⟩

instance : IsTrans (Nat × Nat) fun a b => pairLe a b = true := ⟨fun a b c => by simp only [pairLe]; grind⟩

variable {steps l : List (Nat × Nat)} {sequence at' : Nat}

/-- A staircase within the bound: sequences ascend and times descend. -/
structure Stair (steps : List (Nat × Nat)) : Prop where
  ordered : steps.Pairwise fun a b => a.1 < b.1 ∧ b.2 < a.2
  bounded : steps.length ≤ maximumAttemptSteps

/-- Every attempt is dominated by a step. -/
def Dominated (l steps : List (Nat × Nat)) : Prop := ∀ a ∈ l, ∃ s ∈ steps, a.1 ≤ s.1 ∧ a.2 ≤ s.2

theorem Dominated.trans {l' : List (Nat × Nat)} (h : Dominated l steps) (h' : Dominated steps l') : Dominated l l' := by
  intro a ha
  obtain ⟨s, hs, hsequence, htime⟩ := h a ha
  obtain ⟨t, ht, hsequence', htime'⟩ := h' s hs
  exact ⟨t, ht, hsequence.trans hsequence', htime.trans htime'⟩

theorem mem_insertAttempt {s : Nat × Nat} : s ∈ insertAttempt steps sequence at' ↔
    s ∈ steps ∧ ¬(s.1 ≤ sequence ∧ s.2 ≤ at') ∨ s = (sequence, at') := by
  simp [insertAttempt, imp_iff_not_or]

theorem length_insertAttempt_le : (insertAttempt steps sequence at').length ≤ steps.length + 1 := by
  rw [insertAttempt, List.length_insertionSort, List.length_append]
  exact Nat.add_le_add_right (List.length_filter_le _ _) 1

/-- The steps that are left and the attempt are pairwise incomparable, so their order is a staircase. -/
theorem insertAttempt_ordered (h : steps.Pairwise fun a b => a.1 < b.1 ∧ b.2 < a.2)
    (hnew : ∀ s ∈ steps, ¬(sequence ≤ s.1 ∧ at' ≤ s.2)) :
    (insertAttempt steps sequence at').Pairwise fun a b => a.1 < b.1 ∧ b.2 < a.2 := by
  let Apart (a b : Nat × Nat) : Prop := a.1 < b.1 ∧ b.2 < a.2 ∨ b.1 < a.1 ∧ a.2 < b.2
  have hsymm : ∀ {a b : Nat × Nat}, Apart a b → Apart b a := Or.symm
  have hkept : ((steps.filter fun s => !(decide (s.1 ≤ sequence) && decide (s.2 ≤ at'))) ++ [(sequence, at')]).Pairwise Apart := by
    refine List.pairwise_append.2 ⟨(h.filter _).imp .inl, List.pairwise_singleton _ _, ?_⟩
    intro s hs new hn
    rw [List.mem_singleton.1 hn]
    obtain ⟨hs, hkeep⟩ := List.mem_filter.1 hs
    have habove := hnew s hs
    simp only [Bool.not_eq_true', Bool.and_eq_false_iff, decide_eq_false_iff_not] at hkeep
    show s.1 < sequence ∧ at' < s.2 ∨ sequence < s.1 ∧ s.2 < at'
    omega
  have hapart : (insertAttempt steps sequence at').Pairwise Apart :=
    ((List.perm_insertionSort _ _).pairwise_iff hsymm).2 hkept
  have hsorted : (insertAttempt steps sequence at').Pairwise fun a b => pairLe a b = true := List.pairwise_insertionSort _ _
  refine (hapart.and hsorted).imp ?_
  rintro a b ⟨hapart, hle⟩
  have hapart : a.1 < b.1 ∧ b.2 < a.2 ∨ b.1 < a.1 ∧ a.2 < b.2 := hapart
  simp only [pairLe, Bool.or_eq_true, Bool.and_eq_true, decide_eq_true_eq, beq_iff_eq] at hle
  omega

theorem insertAttempt_dominates : Dominated ((sequence, at') :: steps) (insertAttempt steps sequence at') := by
  refine List.forall_mem_cons.2 ⟨⟨_, mem_insertAttempt.2 (.inr rfl), le_rfl, le_rfl⟩, ?_⟩
  intro s hs
  by_cases hbelow : s.1 ≤ sequence ∧ s.2 ≤ at'
  · exact ⟨_, mem_insertAttempt.2 (.inr rfl), hbelow⟩
  · exact ⟨s, mem_insertAttempt.2 (.inl ⟨hs, hbelow⟩), le_rfl, le_rfl⟩

/-- What recording an attempt does. -/
inductive Recorded (steps : List (Nat × Nat)) (sequence at' : Nat) : List (Nat × Nat) → Prop
  | dominated (s : Nat × Nat) (hs : s ∈ steps) (hsequence : sequence ≤ s.1) (htime : at' ≤ s.2) : Recorded steps sequence at' steps
  | inserted (hnew : ∀ s ∈ steps, ¬(sequence ≤ s.1 ∧ at' ≤ s.2))
      (hlength : (insertAttempt steps sequence at').length ≤ maximumAttemptSteps) :
    Recorded steps sequence at' (insertAttempt steps sequence at')
  | merged (hnew : ∀ s ∈ steps, ¬(sequence ≤ s.1 ∧ at' ≤ s.2)) (lower higher : Nat × Nat) (rest : List (Nat × Nat))
      (heq : insertAttempt steps sequence at' = lower :: higher :: rest)
      (hmerges : Merges steps (sequence, at')) :
    Recorded steps sequence at' ((higher.1, lower.2) :: rest)

theorem recordAttempt_recorded : Recorded steps sequence at' (recordAttempt steps sequence at') := by
  unfold recordAttempt
  split_ifs with hany
  · simp only [List.any_eq_true, Bool.and_eq_true, decide_eq_true_eq] at hany
    obtain ⟨s, hs, hsequence, htime⟩ := hany
    exact .dominated s hs hsequence htime
  · have hnew : ∀ s ∈ steps, ¬(sequence ≤ s.1 ∧ at' ≤ s.2) := by
      intro s hs hboth
      refine hany (List.any_eq_true.2 ⟨s, hs, ?_⟩)
      simpa using hboth
    dsimp only
    split_ifs with hlong
    · cases hkept : insertAttempt steps sequence at' with
      | nil =>
        rw [hkept] at hlong
        cases hlong
      | cons lower kept =>
        cases kept with
        | nil =>
          rw [hkept] at hlong
          simp [maximumAttemptSteps] at hlong
        | cons higher rest => exact .merged hnew lower higher rest hkept ⟨hnew, hlong⟩
    · exact .inserted hnew (not_lt.1 hlong)

variable {steps' : List (Nat × Nat)}

theorem Recorded.stair (hr : Recorded steps sequence at' steps') (h : Stair steps) : Stair steps' := by
  cases hr with
  | dominated s hs hsequence htime => exact h
  | inserted hnew hlength => exact ⟨insertAttempt_ordered h.ordered hnew, hlength⟩
  | merged hnew lower higher rest heq hmerges =>
    have hordered := insertAttempt_ordered h.ordered hnew
    have hlength := @length_insertAttempt_le steps sequence at'
    rw [heq] at hordered hlength
    obtain ⟨hlower, hordered⟩ := List.pairwise_cons.1 hordered
    obtain ⟨hhigher, hrest⟩ := List.pairwise_cons.1 hordered
    refine ⟨List.pairwise_cons.2 ⟨?_, hrest⟩, ?_⟩
    · intro s hs
      exact ⟨(hhigher s hs).1, (hlower s (List.mem_cons_of_mem _ hs)).2⟩
    · have := h.bounded
      simp only [List.length_cons] at hlength ⊢
      omega

theorem Recorded.dominates (hr : Recorded steps sequence at' steps') (h : Stair steps) :
    Dominated ((sequence, at') :: steps) steps' := by
  cases hr with
  | dominated s hs hsequence htime =>
    refine List.forall_mem_cons.2 ⟨⟨s, hs, hsequence, htime⟩, ?_⟩
    exact fun a ha => ⟨a, ha, le_rfl, le_rfl⟩
  | inserted hnew hlength => exact insertAttempt_dominates
  | merged hnew lower higher rest heq hmerges =>
    have hordered := insertAttempt_ordered h.ordered hnew
    rw [heq] at hordered
    have hlower := (List.pairwise_cons.1 hordered).1 higher List.mem_cons_self
    have hdominated := @insertAttempt_dominates steps sequence at'
    rw [heq] at hdominated
    refine hdominated.trans ?_
    -- the merged step has the higher sequence and the later time of the two
    refine List.forall_mem_cons.2 ⟨⟨_, List.mem_cons_self, hlower.1.le, le_rfl⟩, List.forall_mem_cons.2 ⟨?_, ?_⟩⟩
    · exact ⟨_, List.mem_cons_self, le_rfl, hlower.2.le⟩
    · exact fun s hs => ⟨s, List.mem_cons_of_mem _ hs, le_rfl, le_rfl⟩

theorem Recorded.subset (hr : Recorded steps sequence at' steps') (hmerges : ¬Merges steps (sequence, at')) :
    steps' ⊆ (sequence, at') :: steps := by
  cases hr with
  | dominated s hs hsequence htime => exact List.subset_cons_self _ _
  | inserted hnew hlength =>
    intro s hs
    rcases mem_insertAttempt.1 hs with ⟨hs, _⟩ | rfl
    · exact List.mem_cons_of_mem _ hs
    · exact List.mem_cons_self
  | merged hnew lower higher rest heq hmerged => exact absurd hmerged hmerges

/-! ## The staircase of all attempts -/

theorem staircase_append (l : List (Nat × Nat)) (a : Nat × Nat) :
    staircase (l ++ [a]) = recordAttempt (staircase l) a.1 a.2 := by
  rw [staircase, List.foldl_append]
  rfl

theorem staircase_stair (l : List (Nat × Nat)) : Stair (staircase l) ∧ Dominated l (staircase l) := by
  induction l using List.reverseRecOn with
  | nil => exact ⟨⟨List.Pairwise.nil, Nat.zero_le _⟩, nofun⟩
  | append_singleton l a ih =>
    obtain ⟨hstair, hdominated⟩ := ih
    rw [staircase_append]
    refine ⟨recordAttempt_recorded.stair hstair, ?_⟩
    have hstep := (@recordAttempt_recorded (staircase l) a.1 a.2).dominates hstair
    intro b hb
    rcases List.mem_append.1 hb with hb | hb
    · exact hdominated.trans (fun s hs => hstep s (List.mem_cons_of_mem _ hs)) b hb
    · rw [List.mem_singleton.1 hb]
      exact hstep a List.mem_cons_self

theorem staircase_subset (hmerges : ∀ earlier a later, l = earlier ++ a :: later → ¬Merges (staircase earlier) a) :
    staircase l ⊆ l := by
  induction l using List.reverseRecOn with
  | nil => exact fun _ h => h
  | append_singleton l a ih =>
    rw [staircase_append]
    have hearlier : staircase l ⊆ l := by
      refine ih ?_
      rintro earlier b later rfl
      exact hmerges earlier b (later ++ [a]) (by simp)
    intro s hs
    rcases List.mem_cons.1 (recordAttempt_recorded.subset (hmerges l a [] rfl) hs) with rfl | hs
    · exact List.mem_append_right _ List.mem_cons_self
    · exact List.mem_append_left _ (hearlier hs)

theorem latestAfter_mono (h : Dominated l steps) (sequence : Nat) : latestAfter sequence l ≤ latestAfter sequence steps := by
  refine List.maximum_le_of_forall_le ?_
  intro time htime
  obtain ⟨a, ha, rfl⟩ := List.mem_map.1 htime
  obtain ⟨ha, hafter⟩ := List.mem_filter.1 ha
  obtain ⟨s, hs, hsequence, hlater⟩ := h a ha
  have hmem : s.2 ∈ (steps.filter fun s => sequence < s.1).map Prod.snd := by
    refine List.mem_map_of_mem (List.mem_filter.2 ⟨hs, ?_⟩)
    rw [decide_eq_true_eq] at hafter ⊢
    omega
  exact (WithBot.coe_le_coe.2 hlater).trans (List.le_maximum_of_mem' hmem)

/-! ## The refused units of a source -/

namespace Source

/-- A refused unit as an attempt. -/
def attempt (header : MediaUnitHeader) : Nat × Nat := (header.sequence, header.captureTimeNs)

/-- The attempts of an epoch among refused units. -/
def attemptsOf (epoch : Nat) (headers : List MediaUnitHeader) : List (Nat × Nat) :=
  (headers.filter fun h => h.captureEpoch = epoch).map attempt

variable {header : MediaUnitHeader} {headers : List MediaUnitHeader} {state : Source}

theorem mem_attemptsOf {epoch : Nat} (hmem : header ∈ headers) (hepoch : header.captureEpoch = epoch) :
    attempt header ∈ attemptsOf epoch headers :=
  List.mem_map_of_mem (List.mem_filter.2 ⟨hmem, decide_eq_true hepoch⟩)

theorem attempted_epoch (state : Source) (header : MediaUnitHeader) :
    (attempted state header).attemptedEpoch = max state.attemptedEpoch header.captureEpoch := by
  unfold attempted
  by_cases hlower : header.captureEpoch < state.attemptedEpoch
  · rw [if_pos hlower, max_eq_left hlower.le]
  · rw [if_neg hlower, max_eq_right (not_lt.1 hlower)]

/-- After refused units the source keeps the staircase of those of the highest epoch. -/
theorem attempts_foldl (hempty : state.attempts = []) (headers : List MediaUnitHeader) :
    (∀ h ∈ headers, h.captureEpoch ≤ (headers.foldl attempted state).attemptedEpoch) ∧
    (headers.foldl attempted state).attempts =
      staircase (attemptsOf (headers.foldl attempted state).attemptedEpoch headers) := by
  induction headers using List.reverseRecOn with
  | nil => exact ⟨nofun, hempty⟩
  | append_singleton headers h ih =>
    obtain ⟨hhighest, hattempts⟩ := ih
    rw [List.foldl_append, List.foldl_cons, List.foldl_nil, attempted_epoch]
    generalize headers.foldl attempted state = current at hhighest hattempts ⊢
    refine ⟨?_, ?_⟩
    · intro h' hmem
      rcases List.mem_append.1 hmem with hmem | hmem
      · exact (hhighest h' hmem).trans (le_max_left _ _)
      · rw [List.mem_singleton.1 hmem]
        exact le_max_right _ _
    · unfold attempted
      rw [attemptsOf, List.filter_append, List.map_append]
      rcases lt_trichotomy h.captureEpoch current.attemptedEpoch with hlt | heq | hgt
      · rw [if_pos hlt, max_eq_left hlt.le]
        simpa [hlt.ne, attemptsOf] using hattempts
      · rw [if_neg heq.not_lt, if_pos heq, heq, max_self]
        have hlast : List.map attempt ([h].filter fun h => h.captureEpoch = current.attemptedEpoch) = [attempt h] := by
          simp [heq]
        rw [hlast, staircase_append]
        exact congrArg (recordAttempt · h.sequence h.captureTimeNs) hattempts
      · rw [if_neg hgt.not_gt, if_neg hgt.ne', max_eq_right hgt.le]
        -- a higher epoch than any before
        have hnone : headers.filter (fun h' => h'.captureEpoch = h.captureEpoch) = [] := by
          refine List.filter_eq_nil_iff.2 ?_
          intro h' hmem
          have := hhighest h' hmem
          rw [decide_eq_true_eq]
          omega
        rw [hnone]
        simp [staircase, attempt]

theorem attemptedTimeNs_of_stair (hordered : state.attempts.Pairwise fun a b => a.1 < b.1 ∧ b.2 < a.2) {s : Nat × Nat}
    (hs : s ∈ state.attempts) : ∃ latest, state.attemptedTimeNs = some latest ∧ s.2 ≤ latest := by
  unfold attemptedTimeNs
  cases hcases : state.attempts with
  | nil =>
    rw [hcases] at hs
    cases hs
  | cons first rest =>
    rw [hcases] at hs hordered
    refine ⟨first.2, rfl, ?_⟩
    rcases List.mem_cons.1 hs with rfl | hs
    · exact le_rfl
    · exact ((List.pairwise_cons.1 hordered).1 s hs).2.le

/-- A unit below the committed time or the latest attempted time of its epoch is a clock regression. -/
theorem clockRegression_of_below {nodeId : UUID} {last : Nat} (hlast : state.lastSequence = some last)
    (hepoch : state.captureEpoch = header.captureEpoch)
    (hbelow : header.captureTimeNs < state.lastCaptureTimeNs ∨ state.attemptedEpoch = header.captureEpoch ∧
      ∃ latest, state.attemptedTimeNs = some latest ∧ header.captureTimeNs < latest) :
    clockRegression nodeId state header =
      [{ nodeId := nodeId, sourceId := header.sourceId, reason := .captureClockRegression
         captureEpoch := header.captureEpoch, afterSequence := some last
         beforeSequence := header.sequence, missingUnits := some 0 }] := by
  have hcommitted : (state.lastSequence.isSome && state.captureEpoch == header.captureEpoch) = true := by
    simp [hlast, hepoch]
  unfold clockRegression
  simp only [hcommitted, if_true, List.singleton_append]
  rw [hlast]
  cases hmax : (state.lastCaptureTimeNs ::
      (if state.attemptedEpoch = header.captureEpoch then state.attemptedTimeNs.toList else [])).max? with
  | none => simp at hmax
  | some latest =>
    have hle := (List.max?_eq_some_iff.1 hmax).2
    have hlater : header.captureTimeNs < latest := by
      rcases hbelow with hbelow | ⟨hattempted, at', hat, hbelow⟩
      · exact hbelow.trans_le (hle _ List.mem_cons_self)
      · refine hbelow.trans_le (hle _ ?_)
        simp [hattempted, hat]
    exact if_neg (not_le.2 hlater)

variable {mark : CommittedWatermark} {final : Source} {header : MediaUnitHeader}

/-- A uncovered attempt below which the unit lies stays in what the watermark leaves, or the watermark's time is later. -/
theorem attemptsBeyond_below (hepoch : mark.captureEpoch = final.attemptedEpoch) {time : Nat}
    (h : ∃ s ∈ final.attempts, mark.sequence < s.1 ∧ time < s.2) :
    time < mark.captureTimeNs ∨ ∃ s ∈ attemptsBeyond (some mark) final, time < s.2 := by
  obtain ⟨s, hs, hsequence, htime⟩ := h
  by_cases hmark : mark.captureTimeNs < s.2
  · right
    refine ⟨s, ?_, htime⟩
    simp only [attemptsBeyond, ne_eq, hepoch, not_true, if_false]
    refine List.mem_filter.2 ⟨hs, ?_⟩
    simp [hsequence, hmark]
  · left
    omega

theorem attemptsBeyond_ordered (h : final.attempts.Pairwise fun a b => a.1 < b.1 ∧ b.2 < a.2) :
    (attemptsBeyond (some mark) final).Pairwise fun a b => a.1 < b.1 ∧ b.2 < a.2 := by
  unfold attemptsBeyond
  dsimp only
  split_ifs
  · exact h
  · exact h.filter _

theorem resolved_eq (hepoch : mark.captureEpoch = final.attemptedEpoch) : resolved (some mark) final header =
    { captureEpoch := mark.captureEpoch, lastSequence := some mark.sequence, lastCaptureTimeNs := mark.captureTimeNs
      attemptedEpoch := final.attemptedEpoch, attempts := attemptsBeyond (some mark) final } :=
  if_pos hepoch.le

theorem discontinuities_resolved {nodeId : UUID} (hepoch : mark.captureEpoch = final.attemptedEpoch)
    (hunit : header.captureEpoch = mark.captureEpoch) (hafter : mark.sequence < header.sequence) :
    ∃ skipped, discontinuities nodeId (some (resolved (some mark) final header)) header =
      .ok (skipped ++ clockRegression nodeId (resolved (some mark) final header) header) := by
  rw [resolved_eq hepoch]
  unfold discontinuities
  dsimp only
  rw [if_neg (by omega)]
  simp only [noted, Option.filter_none]
  rw [if_neg (by omega), if_neg (by omega)]
  exact ⟨_, rfl⟩

theorem regression_reported (hempty : state.attempts = [])
    (hepoch : mark.captureEpoch = (headers.foldl attempted state).attemptedEpoch)
    (hunit : header.captureEpoch = mark.captureEpoch)
    (hbelow : header.captureTimeNs < mark.captureTimeNs ∨ ∃ refused ∈ headers, refused.captureEpoch = mark.captureEpoch ∧
      mark.sequence < refused.sequence ∧ header.captureTimeNs < refused.captureTimeNs)
    (nodeId : UUID) : clockRegression nodeId (resolved (some mark) (headers.foldl attempted state) header) header =
      [{ nodeId := nodeId, sourceId := header.sourceId, reason := .captureClockRegression
         captureEpoch := header.captureEpoch, afterSequence := some mark.sequence
         beforeSequence := header.sequence, missingUnits := some 0 }] := by
  obtain ⟨-, hattempts⟩ := attempts_foldl hempty headers
  generalize headers.foldl attempted state = final at hepoch hattempts ⊢
  obtain ⟨hstair, hdominated⟩ := staircase_stair (attemptsOf final.attemptedEpoch headers)
  rw [← hattempts] at hstair hdominated
  have hbelow : header.captureTimeNs < mark.captureTimeNs ∨
      ∃ s ∈ attemptsBeyond (some mark) final, header.captureTimeNs < s.2 := by
    rcases hbelow with hbelow | ⟨refused, hmem, hsame, hsequence, htime⟩
    · exact .inl hbelow
    · obtain ⟨s, hs, hle, hlate⟩ := hdominated _ (mem_attemptsOf hmem (hsame.trans hepoch))
      exact attemptsBeyond_below hepoch ⟨s, hs, hsequence.trans_le hle, htime.trans_le hlate⟩
  rw [resolved_eq hepoch]
  refine clockRegression_of_below rfl hunit.symm ?_
  refine hbelow.imp_right fun ⟨s, hs, htime⟩ => ⟨hepoch.symm.trans hunit.symm, ?_⟩
  obtain ⟨latest, hlatest, hle⟩ := @attemptedTimeNs_of_stair
    { captureEpoch := mark.captureEpoch, lastSequence := some mark.sequence, lastCaptureTimeNs := mark.captureTimeNs
      attemptedEpoch := final.attemptedEpoch, attempts := attemptsBeyond (some mark) final }
    (attemptsBeyond_ordered hstair.ordered) s hs
  exact ⟨latest, hlatest, htime.trans_le hle⟩

end Source

open Source

/-- Any attempts in any order leave a staircase of at most eight steps whose latest time after any sequence is not before the
true one, and is the true one while nothing was merged. So after any refused units, under any watermark of the epoch they
reached, a unit after the watermark whose time is before the watermark's or before that of a refused unit the watermark does
not cover is reported as a clock regression. -/
theorem staircase_never_hides_regression :
    (∀ attempts : List (Nat × Nat),
      (staircase attempts).Pairwise (fun a b => a.1 < b.1 ∧ b.2 < a.2) ∧ (staircase attempts).length ≤ 8 ∧
      (∀ sequence, latestAfter sequence attempts ≤ latestAfter sequence (staircase attempts)) ∧
      ((∀ earlier a later, attempts = earlier ++ a :: later → ¬Merges (staircase earlier) a) →
        ∀ sequence, latestAfter sequence (staircase attempts) = latestAfter sequence attempts)) ∧
    ∀ (nodeId : UUID) (state : Source) (headers : List MediaUnitHeader) (mark : CommittedWatermark) (header : MediaUnitHeader),
      state.attempts = [] → mark.captureEpoch = (headers.foldl attempted state).attemptedEpoch →
      header.captureEpoch = mark.captureEpoch → mark.sequence < header.sequence →
      (header.captureTimeNs < mark.captureTimeNs ∨ ∃ refused ∈ headers, refused.captureEpoch = mark.captureEpoch ∧
        mark.sequence < refused.sequence ∧ header.captureTimeNs < refused.captureTimeNs) →
      ∃ gaps, discontinuities nodeId (some (resolved (some mark) (headers.foldl attempted state) header)) header = .ok gaps ∧
        { nodeId := nodeId, sourceId := header.sourceId, reason := .captureClockRegression
          captureEpoch := header.captureEpoch, afterSequence := some mark.sequence
          beforeSequence := header.sequence, missingUnits := some 0 } ∈ gaps := by
  refine ⟨?_, ?_⟩
  · intro attempts
    obtain ⟨hstair, hdominated⟩ := staircase_stair attempts
    refine ⟨hstair.ordered, hstair.bounded, fun sequence => latestAfter_mono hdominated sequence, ?_⟩
    intro hmerges sequence
    have hsubset : Dominated (staircase attempts) attempts :=
      fun s hs => ⟨s, staircase_subset hmerges hs, le_rfl, le_rfl⟩
    exact le_antisymm (latestAfter_mono hsubset sequence) (latestAfter_mono hdominated sequence)
  · intro nodeId state headers mark header hempty hepoch hunit hafter hbelow
    obtain ⟨skipped, hgaps⟩ := @discontinuities_resolved mark _ header nodeId hepoch hunit hafter
    refine ⟨_, hgaps, List.mem_append_right _ ?_⟩
    rw [regression_reported hempty hepoch hunit hbelow]
    exact List.mem_singleton_self _

/-- Nine refused units, each earlier than the one before, make nine steps. -/
def refusedUnit (sequence : Fin 9) : MediaUnitHeader where
  sourceId := 5
  captureEpoch := 1
  sequence := sequence
  captureTimeNs := 100 - sequence
  bounded := by simp [maximumCounter]; omega

theorem staircase_never_hides_regression_merged :
    Merges (staircase (((List.ofFn refusedUnit).map fun u => (u.sequence, u.captureTimeNs)).take 8)) (8, 92) ∧
    ∃ gaps, discontinuities 7 (some (resolved (some ⟨7, 1, 3, 10, by decide⟩)
      ((List.ofFn refusedUnit).foldl attempted ⟨1, none, 0, 0, [], 0, none⟩) ⟨5, 1, 20, 50, by decide⟩))
        ⟨5, 1, 20, 50, by decide⟩ = .ok gaps ∧ ⟨7, 5, .captureClockRegression, 1, some 3, 20, some 0⟩ ∈ gaps := by
  constructor
  · exact ⟨by decide, by decide⟩
  · exact staircase_never_hides_regression.2 7 ⟨1, none, 0, 0, [], 0, none⟩ (List.ofFn refusedUnit) ⟨7, 1, 3, 10, by decide⟩
      ⟨5, 1, 20, 50, by decide⟩ rfl (by decide) rfl (by decide) (.inr ⟨refusedUnit 8, by simp, rfl, by decide, by decide⟩)

end Sentinel.Continuity
