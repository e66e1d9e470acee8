import Sentinel.Media.Sampling

/-!
# The sampler keeps to its grid

Within a part the next deadline is always the end of the cell of the last frame, whatever frames were passed over.
-/

namespace Sentinel.Media

open InferenceSampler

variable {s : InferenceSampler} {start period time previous : ℚ}

theorem InferenceSampler.period_pos (s : InferenceSampler) : 0 < s.period := one_div_pos.2 s.profile.fps_pos

/-! ## Cells -/

theorem cell_start : cell start period start = 0 := by simp [cell]

theorem cell_mono (hperiod : 0 < period) (hle : previous ≤ time) : cell start period previous ≤ cell start period time := by
  refine Int.floor_mono ?_
  have := sub_le_sub_right hle start
  gcongr

theorem lt_deadline_iff (hperiod : 0 < period) {k : Int} : time < start + (k + 1) * period ↔ cell start period time ≤ k := by
  rw [cell, ← Int.lt_add_one_iff, Int.floor_lt, div_lt_iff₀ hperiod, sub_lt_iff_lt_add']
  push_cast
  rfl

theorem cell_bounds (hperiod : 0 < period) : start + cell start period time * period ≤ time ∧
    time < start + (cell start period time + 1) * period := by
  refine ⟨?_, (lt_deadline_iff hperiod).2 le_rfl⟩
  have hfloor := Int.floor_le ((time - start) / period)
  rw [le_div_iff₀ hperiod] at hfloor
  exact le_sub_iff_add_le'.1 hfloor

theorem jump_eq (hperiod : 0 < period) (k : Int) :
    start + (k + 1) * period + ((⌊(time - (start + (k + 1) * period)) / period⌋ + 1 : Int) : ℚ) * period =
      start + (cell start period time + 1) * period := by
  have hcell : (time - (start + (k + 1) * period)) / period = (time - start) / period - ((k + 1 : Int) : ℚ) := by
    push_cast
    field_simp
    ring
  rw [hcell, Int.floor_sub_intCast, cell]
  push_cast
  ring

/-! ## One frame -/

/-- What a frame of a part does: after it the deadline is the end of its cell. -/
structure Passed (s s' : InferenceSampler) (start last time : ℚ) (decision : SampleDecision) : Prop where
  period : s'.period = s.period
  reference : s'.reference = some ⟨time, start + (cell start s.period time + 1) * s.period⟩
  ordered : last ≤ time
  emitted : decision.emit = true ↔ cell start s.period last < cell start s.period time

/-- A frame that starts a part. -/
structure Started (s s' : InferenceSampler) (time : ℚ) (decision : SampleDecision) : Prop where
  period : s'.period = s.period
  reference : s'.reference = some ⟨time, time + s.period⟩
  emitted : decision.emit = true

theorem selectAt_first (h : s.reference = none) (time : ℚ) :
    Started s (s.selectAt time).1 time (s.selectAt time).2 ∧ (s.selectAt time).2.reason = .firstFrame := by
  unfold selectAt
  rw [h]
  exact ⟨⟨rfl, rfl, rfl⟩, rfl⟩

variable {last : ℚ} {seen : List Answer} {s' : InferenceSampler} {decision : SampleDecision}

theorem selectAt_next (h : s.reference = some ⟨last, start + (cell start s.period last + 1) * s.period⟩) (time : ℚ) :
    let answer : Answer := ⟨time, (s.selectAt time).2⟩
    answer.starts ∧ Started s (s.selectAt time).1 time (s.selectAt time).2 ∨
    ¬answer.starts ∧ Passed s (s.selectAt time).1 start last time (s.selectAt time).2 := by
  have hperiod := s.period_pos
  have hdeadline := @lt_deadline_iff start s.period time hperiod (cell start s.period last)
  unfold selectAt
  rw [h]
  dsimp only
  by_cases hsame : time = last
  · right
    rw [if_pos hsame]
    subst hsame
    exact ⟨by simp [Answer.starts, result], rfl, h, le_rfl, by simp [result]⟩
  rw [if_neg hsame]
  by_cases hjump : time - last < 0 ∨ s.profile.maximumTimestampGap < time - last
  · left
    rw [if_pos hjump]
    refine ⟨?_, rfl, rfl, rfl⟩
    by_cases hback : time - last < 0 <;> simp [Answer.starts, result, hback]
  rw [if_neg hjump]
  have hordered : last ≤ time := sub_nonneg.1 (not_lt.1 fun hback => hjump (.inl hback))
  have hcells := @cell_mono start s.period time last hperiod hordered
  right
  by_cases hearly : time < start + (cell start s.period last + 1) * s.period
  · rw [if_pos hearly]
    -- the frame shares the cell of the last one
    have hsame : cell start s.period time = cell start s.period last := le_antisymm (hdeadline.1 hearly) hcells
    refine ⟨by simp [Answer.starts, result], rfl, ?_, hordered, ?_⟩
    · rw [hsame]
    · simp [result, hsame]
  · rw [if_neg hearly]
    have hlater : cell start s.period last < cell start s.period time := not_le.1 fun hle => hearly (hdeadline.2 hle)
    refine ⟨by simp [Answer.starts, result], rfl, ?_, hordered, ?_⟩
    · rw [jump_eq hperiod]
    · simp [result, hlater]

theorem selectAt_kept (s : InferenceSampler) (time : ℚ) :
    (s.selectAt time).1.profile = s.profile ∧ ∃ next, (s.selectAt time).1.reference = some ⟨time, next⟩ := by
  unfold selectAt
  split
  · exact ⟨rfl, _, rfl⟩
  · rename_i r hreference
    dsimp only
    split_ifs with hsame
    · exact ⟨rfl, r.next, by rw [hreference, hsame]⟩
    all_goals exact ⟨rfl, _, rfl⟩

/-- A later frame starts a part exactly when it goes back in time or leaves a gap. -/
theorem selectAt_starts_iff {r : Reference} (h : s.reference = some r) (time : ℚ) :
    (⟨time, (s.selectAt time).2⟩ : Answer).starts ↔
      time - r.previous < 0 ∨ s.profile.maximumTimestampGap < time - r.previous := by
  have hgap := s.profile.gap_pos
  unfold selectAt
  rw [h]
  dsimp only
  split_ifs with hsame hjump hback hearly
  · simp [Answer.starts, result, hsame, hgap.le]
  · exact iff_of_true (by simp [Answer.starts, result]) hjump
  · exact iff_of_true (by simp [Answer.starts, result]) hjump
  · exact iff_of_false (by simp [Answer.starts, result]) hjump
  · exact iff_of_false (by simp [Answer.starts, result]) hjump

theorem answers_cons (s : InferenceSampler) (frame : Frame) (rest : List Frame) :
    s.answers (frame :: rest) =
      ⟨frame.timestamp, (s.selectAt frame.timestamp).2⟩ :: (s.selectAt frame.timestamp).1.answers rest := by
  rw [answers, select, if_neg (not_le.2 frame.timeBase_pos), if_neg (not_not.2 rfl)]
  rfl

/-! ## A part -/

/-- What the frames seen in a part say of the sampler's state. -/
structure Part (s : InferenceSampler) (start last : ℚ) (seen : List Answer) : Prop where
  reference : s.reference = some ⟨last, start + (cell start s.period last + 1) * s.period⟩
  last_mem : ∃ a ∈ seen, a.timestamp = last
  le_last : ∀ a ∈ seen, a.timestamp ≤ last
  start_le : start ≤ last

/-- The first frame of a part in its cell is the one that lies in a later cell than the last frame. -/
theorem Part.first_iff (h : Part s start last seen) (hordered : last ≤ time) :
    cell start s.period last < cell start s.period time ↔
      ∀ a ∈ seen, cell start s.period a.timestamp ≠ cell start s.period time := by
  have hperiod := s.period_pos
  constructor
  · intro hlater a ha
    have := @cell_mono start s.period last a.timestamp hperiod (h.le_last a ha)
    omega
  · intro hfirst
    obtain ⟨a, ha, rfl⟩ := h.last_mem
    have := @cell_mono start s.period time a.timestamp hperiod hordered
    have := hfirst a ha
    omega

theorem Part.passed (h : Part s start last seen) (hpassed : Passed s s' start last time decision) :
    Part s' start time (seen ++ [⟨time, decision⟩]) where
  reference := by rw [hpassed.reference, hpassed.period]
  last_mem := ⟨_, List.mem_append_right _ List.mem_cons_self, rfl⟩
  le_last := by
    intro a ha
    rcases List.mem_append.1 ha with ha | ha
    · exact (h.le_last a ha).trans hpassed.ordered
    · rw [List.mem_singleton.1 ha]
  start_le := h.start_le.trans hpassed.ordered

theorem Started.part (h : Started s s' time decision) : Part s' time time [⟨time, decision⟩] where
  reference := by
    rw [h.reference, h.period, cell_start]
    norm_num
  last_mem := ⟨_, List.mem_cons_self, rfl⟩
  le_last := by simp
  start_le := le_rfl

/-- The frames of a part lie at or after its start, and each is emitted exactly when it is the first in its cell. -/
def OnGrid (start period : ℚ) (part : List Answer) : Prop :=
  ∀ before a after, part = before ++ a :: after → start ≤ a.timestamp ∧
    (a.decision.emit = true ↔ ∀ b ∈ before, cell start period b.timestamp ≠ cell start period a.timestamp)

theorem OnGrid.append {part : List Answer} {a : Answer} (h : OnGrid start period part) (hstart : start ≤ a.timestamp)
    (ha : a.decision.emit = true ↔ ∀ b ∈ part, cell start period b.timestamp ≠ cell start period a.timestamp) :
    OnGrid start period (part ++ [a]) := by
  intro before a' after heq
  rcases List.eq_nil_or_concat after with rfl | ⟨after, last, rfl⟩
  · obtain ⟨rfl, hlast⟩ := List.append_inj' heq rfl
    rw [List.singleton_inj] at hlast
    subst hlast
    exact ⟨hstart, ha⟩
  · rw [List.concat_eq_append, ← List.cons_append, ← List.append_assoc] at heq
    obtain ⟨heq, -⟩ := List.append_inj' heq rfl
    exact h before a' after heq

theorem Part.onGrid (frames : List Frame) : ∀ {s : InferenceSampler} {last : ℚ} {seen : List Answer}, Part s start last seen →
    OnGrid start s.period seen → ∀ {part later : List Answer}, s.answers frames = part ++ later →
    (∀ a ∈ part, ¬a.starts) → OnGrid start s.period (seen ++ part) := by
  induction frames with
  | nil =>
    intro s last seen _ hgrid part later heq _
    obtain ⟨rfl, -⟩ := List.append_eq_nil_iff.1 heq.symm
    rwa [List.append_nil]
  | cons frame rest ih =>
    intro s last seen hpart hgrid part later heq hstarts
    cases part with
    | nil => rwa [List.append_nil]
    | cons a part =>
      rw [answers_cons] at heq
      obtain ⟨rfl, htail⟩ := List.cons_eq_cons.1 heq
      rcases selectAt_next hpart.reference frame.timestamp with ⟨hstart, -⟩ | ⟨-, hpassed⟩
      · exact absurd hstart (hstarts _ List.mem_cons_self)
      · have hnext := hpart.passed hpassed
        have hgrid := @OnGrid.append _ _ _ ⟨frame.timestamp, _⟩ hgrid hnext.start_le
          (hpassed.emitted.trans (hpart.first_iff hpassed.ordered))
        rw [← hpassed.period] at hgrid ⊢
        rw [← List.singleton_append, ← List.append_assoc]
        exact ih hnext hgrid htail fun a ha => hstarts a (List.mem_cons_of_mem _ ha)

/-! ## The whole stream -/

/-- The states of a sampler: nothing seen yet, or within a part. -/
def Valid (s : InferenceSampler) : Prop :=
  s.reference = none ∨ ∃ start last, s.reference = some ⟨last, start + (cell start s.period last + 1) * s.period⟩

/-- A frame starts a part or passes within one; either way the state stays valid. -/
theorem Valid.select (h : Valid s) (time : ℚ) :
    Valid (s.selectAt time).1 ∧ (s.selectAt time).1.period = s.period ∧
    ((⟨time, (s.selectAt time).2⟩ : Answer).starts → Started s (s.selectAt time).1 time (s.selectAt time).2) := by
  have hstarted : Started s (s.selectAt time).1 time (s.selectAt time).2 → Valid (s.selectAt time).1 :=
    fun h => .inr ⟨time, time, h.part.reference⟩
  rcases h with hfresh | ⟨start, last, hreference⟩
  · obtain ⟨h, -⟩ := selectAt_first hfresh time
    exact ⟨hstarted h, h.period, fun _ => h⟩
  · rcases selectAt_next hreference time with ⟨-, h⟩ | ⟨hstarts, h⟩
    · exact ⟨hstarted h, h.period, fun _ => h⟩
    · refine ⟨.inr ⟨start, time, ?_⟩, h.period, fun hs => absurd hs hstarts⟩
      rw [h.reference, h.period]

theorem Valid.onGrid (frames : List Frame) : ∀ {s : InferenceSampler}, Valid s → ∀ {earlier part later : List Answer} {first : Answer},
    s.answers frames = earlier ++ first :: (part ++ later) → first.starts → (∀ a ∈ part, ¬a.starts) →
    OnGrid first.timestamp s.period (first :: part) := by
  induction frames with
  | nil =>
    intro s _ earlier part later first heq
    simp [answers] at heq
  | cons frame rest ih =>
    intro s hvalid earlier part later first heq hfirst hstarts
    obtain ⟨hnext, hperiod, hstarted⟩ := hvalid.select frame.timestamp
    rw [answers_cons] at heq
    cases earlier with
    | cons a earlier =>
      obtain ⟨-, heq⟩ := List.cons_eq_cons.1 heq
      rw [← hperiod]
      exact ih hnext heq hfirst hstarts
    | nil =>
      obtain ⟨rfl, htail⟩ := List.cons_eq_cons.1 heq
      have hstarted := hstarted hfirst
      have hgrid : OnGrid frame.timestamp s.period [⟨frame.timestamp, (s.selectAt frame.timestamp).2⟩] := by
        refine @OnGrid.append _ _ [] _ ?_ le_rfl ?_
        · intro before a after hnil
          simp at hnil
        · simp [hstarted.emitted]
      rw [← hperiod] at hgrid ⊢
      exact hstarted.part.onGrid rest hgrid htail hstarts

theorem answers_timestamps (frames : List Frame) :
    ∀ s : InferenceSampler, (s.answers frames).map Answer.timestamp = frames.map Frame.timestamp := by
  induction frames with
  | nil => exact fun s => rfl
  | cons frame rest ih =>
    intro s
    rw [answers_cons, List.map_cons, List.map_cons, ih]

theorem answers_starts_iff (frames : List Frame) : ∀ (s : InferenceSampler) {earlier later : List Answer} {a b : Answer},
    s.answers frames = earlier ++ a :: b :: later →
    (b.starts ↔ b.timestamp - a.timestamp < 0 ∨ s.profile.maximumTimestampGap < b.timestamp - a.timestamp) := by
  induction frames with
  | nil =>
    intro s earlier later a b heq
    simp [answers] at heq
  | cons frame rest ih =>
    intro s earlier later a b heq
    obtain ⟨hprofile, next, hreference⟩ := selectAt_kept s frame.timestamp
    rw [answers_cons] at heq
    rw [← hprofile]
    cases earlier with
    | cons x earlier => exact ih _ (List.cons_eq_cons.1 heq).2
    | nil =>
      obtain ⟨rfl, hrest⟩ := List.cons_eq_cons.1 heq
      cases rest with
      | nil => cases hrest
      | cons frame' rest =>
        rw [answers_cons] at hrest
        obtain ⟨rfl, -⟩ := List.cons_eq_cons.1 hrest
        exact selectAt_starts_iff hreference frame'.timestamp

theorem OnGrid.count {part : List Answer} (h : OnGrid start period part) (k : Int) :
    part.countP (fun a => a.decision.emit && cell start period a.timestamp == k) =
      if ∃ a ∈ part, cell start period a.timestamp = k then 1 else 0 := by
  induction part using List.reverseRecOn with
  | nil => simp
  | append_singleton part a ih =>
    have ih := ih fun before b after heq => h before b (after ++ [a]) (by simp [heq])
    have ha := (h part a [] rfl).2
    rw [List.countP_append, ih, List.countP_singleton]
    have hmem : (∃ b ∈ part ++ [a], cell start period b.timestamp = k) ↔
        (∃ b ∈ part, cell start period b.timestamp = k) ∨ cell start period a.timestamp = k := by
      simp [or_and_right, exists_or]
    simp only [hmem]
    by_cases hcell : cell start period a.timestamp = k
    · by_cases hseen : ∃ b ∈ part, cell start period b.timestamp = k
      · have hpassed : a.decision.emit ≠ true := by
          obtain ⟨b, hb, hbcell⟩ := hseen
          exact fun hemit => ha.1 hemit b hb (hbcell.trans hcell.symm)
        simp [hpassed, hcell, hseen]
      · have hemit : a.decision.emit = true := ha.2 fun b hb heq => hseen ⟨b, hb, heq.trans hcell⟩
        simp [hemit, hcell, hseen]
    · simp [hcell]

/-- Every frame is answered and belongs to a part: a run of answers from one that starts a part, with none that starts another.
The first frame starts a part, and a later one exactly when it goes back in time or comes after the largest gap. In a part
every frame lies in a cell of the grid that the part's first time sets, a frame is emitted exactly when it is the first of the
part in its cell, and a cell with frames has exactly one that is emitted. -/
theorem sampler_keeps_grid (profile : InferenceProfile) (streamId : UUID) (frames : List Frame) :
    let s := InferenceSampler.new profile streamId
    (s.answers frames).map Answer.timestamp = frames.map Frame.timestamp ∧
    (∀ first rest, s.answers frames = first :: rest → first.starts) ∧
    (∀ earlier a b later, s.answers frames = earlier ++ a :: b :: later →
      (b.starts ↔ b.timestamp - a.timestamp < 0 ∨ profile.maximumTimestampGap < b.timestamp - a.timestamp)) ∧
    ∀ earlier first part later, s.answers frames = earlier ++ first :: (part ++ later) → first.starts →
      (∀ a ∈ part, ¬a.starts) →
      (∀ before a after, first :: part = before ++ a :: after →
        (a.decision.emit = true ↔
          ∀ b ∈ before, cell first.timestamp s.period b.timestamp ≠ cell first.timestamp s.period a.timestamp)) ∧
      (∀ a ∈ first :: part, ∃ k : Nat, cell first.timestamp s.period a.timestamp = k ∧
        first.timestamp + k * s.period ≤ a.timestamp ∧ a.timestamp < first.timestamp + (k + 1) * s.period) ∧
      ∀ k, (first :: part).countP (fun a => a.decision.emit && cell first.timestamp s.period a.timestamp == k) =
        if ∃ a ∈ first :: part, cell first.timestamp s.period a.timestamp = k then 1 else 0 := by
  intro s
  refine ⟨answers_timestamps frames s, ?_, fun _ _ _ _ heq => answers_starts_iff frames s heq, ?_⟩
  · intro first rest heq
    cases frames with
    | nil => cases heq
    | cons frame frames =>
      rw [answers_cons] at heq
      obtain ⟨rfl, -⟩ := List.cons_eq_cons.1 heq
      exact .inl (@selectAt_first s rfl frame.timestamp).2
  · intro earlier first part later heq hfirst hstarts
    have hvalid : Valid s := .inl rfl
    have hgrid := hvalid.onGrid frames heq hfirst hstarts
    refine ⟨fun before a after hsplit => (hgrid before a after hsplit).2, ?_, hgrid.count⟩
    intro a ha
    obtain ⟨before, after, hsplit⟩ := List.append_of_mem ha
    have hle := (hgrid before a after hsplit).1
    have hbounds := @cell_bounds first.timestamp s.period a.timestamp s.period_pos
    have hnonneg : 0 ≤ cell first.timestamp s.period a.timestamp := by
      rw [← @cell_start first.timestamp s.period]
      exact cell_mono s.period_pos hle
    obtain ⟨k, hk⟩ := Int.eq_ofNat_of_zero_le hnonneg
    rw [hk, Int.cast_natCast] at hbounds
    exact ⟨k, hk, hbounds⟩

end Sentinel.Media
