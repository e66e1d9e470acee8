import Mathlib

/-!
# Closed segments of the plane

When two closed segments meet, decided by orientations. Points are pairs over an ordered field.
-/

namespace Sentinel.Segments

/-- The orientation of three points: twice the signed area of their triangle. -/
def cross {R : Type*} [CommRing R] (a b c : R × R) : R := (b.1 - a.1) * (c.2 - a.2) - (b.2 - a.2) * (c.1 - a.1)

section Meeting

variable {K : Type*} [Field K] [LinearOrder K] {a b c d : K × K}

/-- The segments cross at a point inside both. -/
def Proper (a b c d : K × K) : Prop := cross a b c * cross a b d < 0 ∧ cross c d a * cross c d b < 0

/-- An end of a segment lies on the other. -/
def Touching (a b c d : K × K) : Prop :=
  c ∈ segment K a b ∨ d ∈ segment K a b ∨ a ∈ segment K c d ∨ b ∈ segment K c d

theorem Touching.symm (h : Touching a b c d) : Touching c d a b := by
  rcases h with h | h | h | h
  · exact .inr (.inr (.inl h))
  · exact .inr (.inr (.inr h))
  · exact .inl h
  · exact .inr (.inl h)

end Meeting

section Field

variable {K : Type*} [Field K] [LinearOrder K] [IsStrictOrderedRing K] {a b c d p : K × K}

theorem mem_segment_iff_param :
    p ∈ segment K a b ↔ ∃ t, 0 ≤ t ∧ t ≤ 1 ∧ p.1 = a.1 + t * (b.1 - a.1) ∧ p.2 = a.2 + t * (b.2 - a.2) := by
  simp only [segment_eq_image', Set.mem_image, Set.mem_Icc, and_assoc, Prod.ext_iff, Prod.fst_add, Prod.snd_add, Prod.smul_fst,
    Prod.smul_snd, Prod.fst_sub, Prod.snd_sub, smul_eq_mul, eq_comm]

theorem exists_param (hne : a ≠ b) (hcross : cross a b p = 0) :
    ∃ t, p.1 = a.1 + t * (b.1 - a.1) ∧ p.2 = a.2 + t * (b.2 - a.2) := by
  unfold cross at hcross
  by_cases hfst : a.1 = b.1
  · have hsnd : b.2 - a.2 ≠ 0 := fun h => hne (Prod.ext hfst (sub_eq_zero.1 h).symm)
    refine ⟨(p.2 - a.2) / (b.2 - a.2), ?_, ?_⟩
    · have hzero : (b.2 - a.2) * (p.1 - a.1) = 0 := by rw [hfst] at hcross ⊢; linear_combination -hcross
      have := (mul_eq_zero.1 hzero).resolve_left hsnd
      rw [hfst] at this ⊢
      linear_combination this
    · field_simp
      ring
  · have hfst : b.1 - a.1 ≠ 0 := fun h => hfst (sub_eq_zero.1 h).symm
    refine ⟨(p.1 - a.1) / (b.1 - a.1), ?_, ?_⟩
    · field_simp
      ring
    · field_simp
      linear_combination hcross

theorem share_mem {x y z t : K} (hne : x ≠ y) (hz : z ∈ Set.uIcc x y) (ht : z = x + t * (y - x)) : 0 ≤ t ∧ t ≤ 1 := by
  rcases lt_or_gt_of_ne hne with hlt | hgt
  · rw [Set.uIcc_of_lt hlt, Set.mem_Icc] at hz
    constructor <;> nlinarith
  · rw [Set.uIcc_of_gt hgt, Set.mem_Icc] at hz
    constructor <;> nlinarith

theorem share_between {t : K} (hzero : 0 ≤ t) (hone : t ≤ 1) (x y : K) : x + t * (y - x) ∈ Set.uIcc x y := by
  rcases le_total x y with hle | hle
  · rw [Set.uIcc_of_le hle, Set.mem_Icc]
    constructor <;> nlinarith
  · rw [Set.uIcc_of_ge hle, Set.mem_Icc]
    constructor <;> nlinarith

theorem mem_segment_iff : p ∈ segment K a b ↔ cross a b p = 0 ∧ p.1 ∈ Set.uIcc a.1 b.1 ∧ p.2 ∈ Set.uIcc a.2 b.2 := by
  rw [mem_segment_iff_param]
  constructor
  · rintro ⟨t, hzero, hone, hfst, hsnd⟩
    refine ⟨?_, hfst ▸ share_between hzero hone _ _, hsnd ▸ share_between hzero hone _ _⟩
    rw [cross, hfst, hsnd]
    ring
  · rintro ⟨hcross, hfst, hsnd⟩
    by_cases hne : a = b
    · subst hne
      rw [Set.uIcc_self, Set.mem_singleton_iff] at hfst hsnd
      exact ⟨0, le_rfl, zero_le_one, by simp [hfst], by simp [hsnd]⟩
    · obtain ⟨t, hparam⟩ := exists_param hne hcross
      have ht : 0 ≤ t ∧ t ≤ 1 := by
        by_cases hfstne : a.1 = b.1
        · exact share_mem (fun h => hne (Prod.ext hfstne h)) hsnd hparam.2
        · exact share_mem hfstne hfst hparam.1
      exact ⟨t, ht.1, ht.2, hparam⟩

theorem Proper.meets (h : Proper a b c d) : ∃ p, p ∈ segment K a b ∧ p ∈ segment K c d := by
  obtain ⟨hab, hcd⟩ := h
  have hshare : ∀ {x y : K}, x * y < 0 → x - y ≠ 0 ∧ 0 ≤ x / (x - y) ∧ x / (x - y) ≤ 1 := by
    intro x y hxy
    rcases mul_neg_iff.1 hxy with ⟨hx, hy⟩ | ⟨hx, hy⟩
    · have hpos : 0 < x - y := by linarith
      exact ⟨hpos.ne', div_nonneg hx.le hpos.le, (div_le_one hpos).2 (by linarith)⟩
    · have hneg : x - y < 0 := by linarith
      exact ⟨hneg.ne, div_nonneg_of_nonpos hx.le hneg.le, (div_le_one_of_neg hneg).2 (by linarith)⟩
  obtain ⟨hne, hzero, hone⟩ := hshare hab
  obtain ⟨hne', hzero', hone'⟩ := hshare hcd
  let t := cross a b c / (cross a b c - cross a b d)
  let r := cross c d a / (cross c d a - cross c d b)
  refine ⟨(c.1 + t * (d.1 - c.1), c.2 + t * (d.2 - c.2)), mem_segment_iff_param.2 ⟨r, hzero', hone', ?_, ?_⟩,
    mem_segment_iff_param.2 ⟨t, hzero, hone, rfl, rfl⟩⟩
  all_goals
    simp only [t, r]
    rw [← sub_eq_zero]
    field_simp
    unfold cross
    ring

theorem touching_of_line {u v s t : K} (hs : 0 ≤ s ∧ s ≤ 1) (ht : 0 ≤ t ∧ t ≤ 1) (hmeet : s = u + t * (v - u))
    (hc : c.1 = a.1 + u * (b.1 - a.1) ∧ c.2 = a.2 + u * (b.2 - a.2))
    (hd : d.1 = a.1 + v * (b.1 - a.1) ∧ d.2 = a.2 + v * (b.2 - a.2)) : Touching a b c d := by
  by_cases hu : 0 ≤ u ∧ u ≤ 1
  · exact .inl (mem_segment_iff_param.2 ⟨u, hu.1, hu.2, hc⟩)
  by_cases hv : 0 ≤ v ∧ v ≤ 1
  · exact .inr (.inl (mem_segment_iff_param.2 ⟨v, hv.1, hv.2, hd⟩))
  -- both ends of the second lie outside, on different sides
  refine .inr (.inr (.inl (mem_segment_iff_param.2 ?_)))
  have hbetween := share_between ht.1 ht.2 u v
  rw [← hmeet, Set.mem_uIcc] at hbetween
  have hsides : u < 0 ∧ 1 < v ∨ 1 < u ∧ v < 0 := by
    rcases hbetween with ⟨hus, hsv⟩ | ⟨hvs, hsu⟩
    · left
      refine ⟨not_le.1 fun h => hu ⟨h, hus.trans hs.2⟩, not_le.1 fun h => hv ⟨hs.1.trans hsv, h⟩⟩
    · right
      refine ⟨not_le.1 fun h => hu ⟨hs.1.trans hsu, h⟩, not_le.1 fun h => hv ⟨h, hvs.trans hs.2⟩⟩
  have hne : u - v ≠ 0 := by
    rcases hsides with h | h <;> intro hzero <;> linarith
  refine ⟨u / (u - v), ?_, ?_, ?_, ?_⟩
  · rcases hsides with ⟨hu, hv⟩ | ⟨hu, hv⟩
    · exact div_nonneg_of_nonpos hu.le (by linarith)
    · exact div_nonneg (by linarith) (by linarith)
  · rcases hsides with ⟨hu, hv⟩ | ⟨hu, hv⟩
    · exact (div_le_one_of_neg (by linarith)).2 (by linarith)
    · exact (div_le_one (by linarith)).2 (by linarith)
  · rw [hc.1, hd.1]
    field_simp
    ring
  · rw [hc.2, hd.2]
    field_simp
    ring

/-- Segments that meet without the ends of the second strictly on both sides of the first touch. -/
theorem touching_of_same_side (hab : p ∈ segment K a b) (hcd : p ∈ segment K c d)
    (hsame : 0 ≤ cross a b c * cross a b d) : Touching a b c d := by
  have hline := (mem_segment_iff.1 hab).1
  obtain ⟨t, ht0, ht1, hpfst, hpsnd⟩ := mem_segment_iff_param.1 hcd
  have hsplit : (1 - t) * cross a b c + t * cross a b d = 0 := by
    rw [cross, hpfst, hpsnd] at hline
    unfold cross
    linear_combination hline
  have hc : (1 - t) * cross a b c ^ 2 = 0 := by
    have hsum : (1 - t) * cross a b c ^ 2 + t * (cross a b c * cross a b d) = 0 := by linear_combination cross a b c * hsplit
    have hfirst : 0 ≤ (1 - t) * cross a b c ^ 2 := mul_nonneg (by linarith) (sq_nonneg _)
    have hsecond : 0 ≤ t * (cross a b c * cross a b d) := mul_nonneg ht0 hsame
    linarith
  rcases mul_eq_zero.1 hc with hend | hc
  · -- the meeting point is the second end
    have ht : t = 1 := by linarith
    have hpd : p = d := Prod.ext (by rw [hpfst, ht]; ring) (by rw [hpsnd, ht]; ring)
    exact .inr (.inl (hpd ▸ hab))
  have hc : cross a b c = 0 := pow_eq_zero_iff two_ne_zero |>.1 hc
  rw [hc, mul_zero, zero_add] at hsplit
  rcases mul_eq_zero.1 hsplit with ht | hd
  · have hpc : p = c := Prod.ext (by rw [hpfst, ht]; ring) (by rw [hpsnd, ht]; ring)
    exact .inl (hpc ▸ hab)
  by_cases hne : a = b
  · subst hne
    rw [segment_same, Set.mem_singleton_iff] at hab
    exact .inr (.inr (.inl (hab ▸ hcd)))
  -- all four points are on one line
  obtain ⟨u, hu⟩ := exists_param hne hc
  obtain ⟨v, hv⟩ := exists_param hne hd
  obtain ⟨s, hs0, hs1, hs⟩ := mem_segment_iff_param.1 hab
  refine touching_of_line ⟨hs0, hs1⟩ ⟨ht0, ht1⟩ ?_ hu hv
  have hfst : (s - (u + t * (v - u))) * (b.1 - a.1) = 0 := by
    have := hs.1.symm.trans hpfst
    rw [hu.1, hv.1] at this
    linear_combination this
  have hsnd : (s - (u + t * (v - u))) * (b.2 - a.2) = 0 := by
    have := hs.2.symm.trans hpsnd
    rw [hu.2, hv.2] at this
    linear_combination this
  rcases mul_eq_zero.1 hfst with h | hfst
  · exact sub_eq_zero.1 h
  rcases mul_eq_zero.1 hsnd with h | hsnd
  · exact sub_eq_zero.1 h
  · exact absurd (Prod.ext (sub_eq_zero.1 hfst).symm (sub_eq_zero.1 hsnd).symm) hne

theorem meets_iff : (∃ p, p ∈ segment K a b ∧ p ∈ segment K c d) ↔ Proper a b c d ∨ Touching a b c d := by
  constructor
  · rintro ⟨p, hab, hcd⟩
    by_cases hfirst : cross a b c * cross a b d < 0
    · by_cases hsecond : cross c d a * cross c d b < 0
      · exact .inl ⟨hfirst, hsecond⟩
      · exact .inr (touching_of_same_side hcd hab (not_lt.1 hsecond)).symm
    · exact .inr (touching_of_same_side hab hcd (not_lt.1 hfirst))
  · rintro (h | h | h | h | h)
    · exact h.meets
    · exact ⟨c, h, left_mem_segment K c d⟩
    · exact ⟨d, h, right_mem_segment K c d⟩
    · exact ⟨a, left_mem_segment K a b, h⟩
    · exact ⟨b, right_mem_segment K a b, h⟩

/-- Two segments from one point that meet anywhere else overlap: the other end of one lies on the other. -/
theorem overlap_of_meets (hfirst : p ∈ segment K b a) (hsecond : p ∈ segment K b c) (hne : p ≠ b) :
    c ∈ segment K b a ∨ a ∈ segment K b c := by
  obtain ⟨s, hs0, hs1, hs⟩ := mem_segment_iff_param.1 hfirst
  obtain ⟨t, ht0, ht1, ht⟩ := mem_segment_iff_param.1 hsecond
  have hspos : 0 < s := by
    refine lt_of_le_of_ne hs0 ?_
    rintro rfl
    exact hne (Prod.ext (by rw [hs.1]; ring) (by rw [hs.2]; ring))
  have htpos : 0 < t := by
    refine lt_of_le_of_ne ht0 ?_
    rintro rfl
    exact hne (Prod.ext (by rw [ht.1]; ring) (by rw [ht.2]; ring))
  have hfst := hs.1.symm.trans ht.1
  have hsnd := hs.2.symm.trans ht.2
  rcases le_total s t with hle | hle
  · refine .inl (mem_segment_iff_param.2 ⟨s / t, (div_pos hspos htpos).le, (div_le_one htpos).2 hle, ?_, ?_⟩)
    · field_simp
      linear_combination -hfst
    · field_simp
      linear_combination -hsnd
  · refine .inr (mem_segment_iff_param.2 ⟨t / s, (div_pos htpos hspos).le, (div_le_one hspos).2 hle, ?_, ?_⟩)
    · field_simp
      linear_combination hfst
    · field_simp
      linear_combination hsnd

end Field

end Sentinel.Segments
