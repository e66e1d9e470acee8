import Mathlib.Algebra.Order.Floor.Div
import Sentinel.Ring.Disk

/-!
# The capacity searches are maximal

A search by bisection returns the largest duration that fits, where what fits is closed downwards and the right end is a
ceiling. A sum of whole segments grows with the duration, and each profile alone bounds the duration that fits.
-/

namespace Sentinel.Ring

open Program

/-! ## Bisection -/

/-- Where a bisection ends: at its left end or at a value that fits, and nothing above it fits. -/
structure Bisected (fits : Nat → Bool) (left right r : Nat) : Prop where
  left_le : left ≤ r
  le_right : r ≤ right
  ends : r = left ∨ fits r = true
  above : ∀ d, r < d → d ≤ right → fits d = false

section Bisection

variable {fits : Nat → Bool} {left right bound : Nat}

theorem bisect_bisected (hfits : ∀ a b, a ≤ b → fits b = true → fits a = true) (fuel : Nat) (hle : left ≤ right)
    (hfuel : right - left ≤ fuel) : Bisected fits left right (bisect fits fuel left right) := by
  induction fuel generalizing left right with
  | zero =>
    refine ⟨le_rfl, hle, .inl rfl, ?_⟩
    intro d (hd : left < d) hright
    omega
  | succ fuel ih =>
    unfold bisect
    dsimp only
    split_ifs with hlt hmiddle
    · have h := @ih ((left + right + 1) / 2) right (by omega) (by omega)
      have hleft := h.left_le
      refine ⟨by omega, h.le_right, .inr ?_, h.above⟩
      rcases h.ends with heq | hend
      · rw [heq]
        exact hmiddle
      · exact hend
    · have h := @ih left ((left + right + 1) / 2 - 1) (by omega) (by omega)
      have hright := h.le_right
      refine ⟨h.left_le, by omega, h.ends, ?_⟩
      intro d hd hdright
      by_cases hbelow : d ≤ (left + right + 1) / 2 - 1
      · exact h.above d hd hbelow
      · -- what fits above the middle would make the middle fit
        by_contra hfit
        rw [Bool.not_eq_false] at hfit
        exact hmiddle (hfits _ d (by omega) hfit)
    · refine ⟨le_rfl, hle, .inl rfl, ?_⟩
      intro d hd hright
      omega

/-- A bisection from a value that fits finds the largest one up to the bound, where what fits is below the right end. -/
theorem bisect_greatest (hfits : ∀ a b, a ≤ b → fits b = true → fits a = true) (hle : left ≤ right) (hleft : fits left = true)
    (hright : right ≤ bound) (hceiling : ∀ d, d ≤ bound → fits d = true → d ≤ right) :
    IsGreatest {d | left ≤ d ∧ d ≤ bound ∧ fits d = true} (bisect fits (right - left) left right) := by
  have h := bisect_bisected hfits (right - left) hle le_rfl
  refine ⟨⟨h.left_le, h.le_right.trans hright, ?_⟩, ?_⟩
  · rcases h.ends with heq | hend
    · rw [heq]
      exact hleft
    · exact hend
  · rintro d ⟨_, hbound, hd⟩
    by_contra hlt
    have habove := h.above d (not_le.1 hlt) (hceiling d hbound hd)
    cases habove.symm.trans hd

end Bisection

/-! ## What fits -/

/-- The bytes of whole segments over a duration, with a size for each profile. -/
def segmentSum (size : SegmentProfile → Nat) (profiles : Profiles) (durationUs : Nat) : Nat :=
  (profiles.values.map fun profile => (durationUs ⌈/⌉ profile.segmentDurationUs + 2) * size profile).sum

section Fits

variable {size : SegmentProfile → Nat} {profiles : Profiles} {value a b d : Nat}

theorem segmentDurationUs_pos (profile : SegmentProfile) : 0 < profile.segmentDurationUs :=
  Nat.lt_of_lt_of_le (by decide) profile.cadence.1

theorem segmentSum_mono (hab : a ≤ b) : segmentSum size profiles a ≤ segmentSum size profiles b := by
  refine List.sum_le_sum fun profile _ => Nat.mul_le_mul_right _ (Nat.add_le_add_right ?_ 2)
  have hpos := segmentDurationUs_pos profile
  exact (ceilDiv_le_iff_le_mul hpos).2 (hab.trans ((ceilDiv_le_iff_le_mul hpos).1 le_rfl))

theorem le_of_segmentSum_le {profile : SegmentProfile} (hprofile : profile ∈ profiles.values) (hsize : 0 < size profile)
    (hfits : segmentSum size profiles d ≤ value) : d ≤ (value / size profile - 2) * profile.segmentDurationUs := by
  have hone : (d ⌈/⌉ profile.segmentDurationUs + 2) * size profile ≤ value :=
    (List.single_le_sum (fun _ _ => Nat.zero_le _) _ (List.mem_map_of_mem hprofile)).trans hfits
  have hcount := (Nat.le_div_iff_mul_le hsize).2 hone
  have hceil : d ⌈/⌉ profile.segmentDurationUs ≤ value / size profile - 2 := by omega
  rw [mul_comm]
  exact (ceilDiv_le_iff_le_mul (segmentDurationUs_pos profile)).1 hceil

theorem segmentBytes_pos (profile : SegmentProfile) (expected : Bool) : 0 < profile.segmentBytes expected := by
  have hbitrates := profile.bitrates
  have hcadence := profile.cadence.1
  have hbitrate : 1 ≤ if expected then profile.expectedBitrate else profile.maximumBitrate := by split <;> omega
  unfold SegmentProfile.segmentBytes bitrateBytes
  generalize (if expected then profile.expectedBitrate else profile.maximumBitrate) = bitrate at hbitrate
  have hproduct : second ≤ bitrate * profile.segmentDurationUs :=
    hcadence.trans (Nat.le_mul_of_pos_left _ hbitrate)
  have hpos : 0 < (bitrate * profile.segmentDurationUs + 8 * second - 1) / (8 * second) := by
    refine Nat.div_pos ?_ (by decide)
    have : 0 < second := by decide
    omega
  omega

theorem roundUp_pos {value unit : Nat} (hvalue : 0 < value) (hunit : 0 < unit) : 0 < roundUp value unit := by
  refine Nat.mul_pos (Nat.div_pos ?_ hunit) hunit
  omega

theorem horizonFits_iff : horizonFits value profiles d = true ↔
    segmentSum (fun profile => profile.segmentBytes true) profiles d ≤ value := decide_eq_true_iff

theorem le_foldl_min (l : List Nat) : d ≤ l.foldl min a ↔ d ≤ a ∧ ∀ x ∈ l, d ≤ x := by
  induction l generalizing a with
  | nil => simp
  | cons x l ih =>
    rw [List.foldl_cons, ih, List.forall_mem_cons, le_min_iff, and_assoc]

end Fits

/-! ## The searches -/

section Searches

variable {config : RingConfig} {profiles : Profiles}

/-- The horizon of a capacity is the largest duration whose segments fit at the expected bitrate, if the pre-loss window
fits. -/
theorem horizonUs_greatest (hmode : config.mode = .capacity) (hne : profiles.values ≠ [])
    (hpre : segmentSum (fun profile => profile.segmentBytes true) profiles pre ≤ config.value) :
    IsGreatest {d | pre ≤ d ∧ segmentSum (fun profile => profile.segmentBytes true) profiles d ≤ config.value}
      (horizonUs config profiles) := by
  unfold horizonUs
  rw [hmode]
  dsimp only
  rw [if_pos (horizonFits_iff.2 hpre)]
  generalize hright : max pre _ = right
  have hceiling : ∀ d, segmentSum (fun profile => profile.segmentBytes true) profiles d ≤ config.value → d ≤ right := by
    intro d hd
    cases hmin : (profiles.values.map fun profile =>
        (config.value / profile.segmentBytes true - 2) * profile.segmentDurationUs).min? with
    | none =>
      rw [List.min?_eq_none_iff, List.map_eq_nil_iff] at hmin
      exact absurd hmin hne
    | some least =>
      obtain ⟨profile, hprofile, rfl⟩ := List.mem_map.1 (List.min?_mem hmin)
      rw [hmin] at hright
      rw [← hright]
      exact le_max_of_le_right (le_of_segmentSum_le hprofile (segmentBytes_pos profile true) hd)
  have hfits : ∀ a b, a ≤ b → horizonFits config.value profiles b = true → horizonFits config.value profiles a = true := by
    intro a b hab hb
    exact horizonFits_iff.2 ((segmentSum_mono hab).trans (horizonFits_iff.1 hb))
  have h := @bisect_greatest _ pre right right hfits (by omega) (horizonFits_iff.2 hpre) le_rfl fun d hd _ => hd
  refine ⟨⟨h.1.1, horizonFits_iff.1 h.1.2.2⟩, ?_⟩
  rintro d ⟨hle, hd⟩
  exact h.2 ⟨hle, hceiling d hd, horizonFits_iff.2 hd⟩

variable (s : Settings)

/-- The block-rounded size of a segment at the maximum bitrate. -/
def roundedBytes (profile : SegmentProfile) : Nat := roundUp (profile.segmentBytes false) s.allocationUnit

/-- The reported duration is the largest one up to `MAX_INTEGER` whose block-rounded segments fit at the maximum bitrate, and
zero if none fits. -/
theorem estimatedDuration_spec (value : Nat) (profiles : Profiles) :
    (segmentSum (roundedBytes s) profiles 0 ≤ value →
      IsGreatest {d | d ≤ maxInteger ∧ segmentSum (roundedBytes s) profiles d ≤ value} (estimatedDuration s value profiles)) ∧
    (¬segmentSum (roundedBytes s) profiles 0 ≤ value → estimatedDuration s value profiles = 0) := by
  unfold estimatedDuration
  dsimp only
  generalize hright : List.foldl min maxInteger _ = right
  generalize hfit : (fun durationUs => decide (List.sum _ ≤ value)) = fits
  have hiff (d : Nat) : fits d = true ↔ segmentSum (roundedBytes s) profiles d ≤ value := by
    rw [← hfit]
    exact decide_eq_true_iff
  have hfits : ∀ a b, a ≤ b → fits b = true → fits a = true := by
    intro a b hab hb
    exact (hiff a).2 ((segmentSum_mono hab).trans ((hiff b).1 hb))
  have hle : ∀ d, d ≤ right ↔ d ≤ maxInteger ∧ ∀ profile ∈ profiles.values,
      d ≤ (value / roundedBytes s profile - 2) * profile.segmentDurationUs := by
    intro d
    rw [← hright, le_foldl_min, List.forall_mem_map]
    rfl
  constructor
  · intro hzero
    have hceiling : ∀ d, d ≤ maxInteger → fits d = true → d ≤ right := by
      intro d hmax hd
      refine (hle d).2 ⟨hmax, fun profile hprofile => ?_⟩
      exact le_of_segmentSum_le hprofile (roundUp_pos (segmentBytes_pos profile false) s.unit_pos) ((hiff d).1 hd)
    have h := bisect_greatest hfits (Nat.zero_le right) ((hiff 0).2 hzero) ((hle right).1 le_rfl).1 hceiling
    refine ⟨⟨h.1.2.1, (hiff _).1 h.1.2.2⟩, ?_⟩
    rintro d ⟨hmax, hd⟩
    exact h.2 ⟨Nat.zero_le d, hmax, (hiff d).2 hd⟩
  · intro hzero
    rcases (bisect_bisected hfits right (Nat.zero_le right) le_rfl).ends with heq | hend
    · exact heq
    · exact absurd ((hiff 0).1 (hfits 0 _ (Nat.zero_le _) hend)) hzero

theorem statusConfigured_estimated (c : Configuration) (now : Int) (clockTrusted : Bool) :
    Triple (fun _ => True) (statusConfigured s c now clockTrusted)
      (fun status _ => c.config.mode = .capacity →
        status.estimatedDurationUs = some (estimatedDuration s c.config.value c.profiles)) fun _ _ => True := by
  have hany {β : Type} (p : RingM β) : Triple (fun _ => True) p (fun _ _ => True) fun _ _ => True := by
    intro w _
    split <;> trivial
  unfold statusConfigured
  refine .bind (hany _) fun _ => .bind (hany _) fun l => .bind (hany _) fun b => .bind (hany _) fun required => ?_
  refine .bind (hany _) fun allocated => .bind (hany _) fun l => .bind (hany _) fun verdict => .bind (hany _) fun _ => ?_
  refine .bind (hany _) fun _ => .bind (hany _) fun _ => .bind (hany _) fun maximum => .bind (hany _) fun expected => ?_
  refine .pure fun _ _ hmode => ?_
  dsimp only
  rw [if_pos hmode, hmode]

end Searches

/-- The searches of the capacity mode are maximal: the horizon is the largest duration, not below the pre-loss window, whose
segments fit at the expected bitrate, and the duration that `_status` reports is the largest one, up to `MAX_INTEGER`, whose
block-rounded segments fit at the maximum bitrate. -/
theorem capacity_searches_maximal (config : RingConfig) (hmode : config.mode = .capacity) (profiles : Profiles)
    (hne : profiles.values ≠ []) :
    (segmentSum (fun profile => profile.segmentBytes true) profiles pre ≤ config.value →
      IsGreatest {d | pre ≤ d ∧ segmentSum (fun profile => profile.segmentBytes true) profiles d ≤ config.value}
        (horizonUs config profiles)) ∧
    (¬segmentSum (fun profile => profile.segmentBytes true) profiles pre ≤ config.value → horizonUs config profiles = pre) ∧
    ∀ (s : Settings) historyAfter now clockTrusted w status w',
      statusConfigured s ⟨config, profiles, historyAfter⟩ now clockTrusted w = (.ok status, w') →
      ∃ d, status.estimatedDurationUs = some d ∧
        (segmentSum (roundedBytes s) profiles 0 ≤ config.value →
          IsGreatest {d | d ≤ maxInteger ∧ segmentSum (roundedBytes s) profiles d ≤ config.value} d) ∧
        (¬segmentSum (roundedBytes s) profiles 0 ≤ config.value → d = 0) := by
  refine ⟨horizonUs_greatest hmode hne, ?_, ?_⟩
  · intro hpre
    unfold horizonUs
    rw [hmode]
    exact if_neg fun hfits => hpre (horizonFits_iff.1 hfits)
  · intro s historyAfter now clockTrusted w status w' hrun
    have hreport := statusConfigured_estimated s ⟨config, profiles, historyAfter⟩ now clockTrusted w trivial
    rw [hrun] at hreport
    exact ⟨_, hreport hmode, estimatedDuration_spec s config.value profiles⟩

theorem slow_bitrates : 1 ≤ 8 ∧ 8 ≤ 8 ∧ 8 ≤ maxInteger := by decide

def slowProfile : SegmentProfile :=
  ⟨0, 8, 8, second, 0, slow_bitrates, by decide, Nat.zero_le maxInteger, by decide⟩

theorem capacity_searches_maximal_slow :
    IsGreatest {d | pre ≤ d ∧ segmentSum (fun profile => profile.segmentBytes true) ⟨[(0, slowProfile)], by decide⟩ d ≤ 1000}
      (horizonUs ⟨.capacity, 1000, by decide, nofun⟩ ⟨[(0, slowProfile)], by decide⟩) :=
  (capacity_searches_maximal ⟨.capacity, 1000, by decide, nofun⟩ rfl ⟨[(0, slowProfile)], by decide⟩ nofun).1 (by decide)

end Sentinel.Ring
