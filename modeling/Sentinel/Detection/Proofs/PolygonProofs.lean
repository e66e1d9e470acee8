import Sentinel.Detection.Polygon

/-!
# Validation accepts the simple polygons

The test of two edges decides whether their closed segments meet. Adjacent edges are not tested: if they overlapped, an end of
one would lie on the other, and with four vertices or more that end belongs to an edge that is tested against it, while a
triangle would have no area.
-/

namespace Sentinel.Detection.Polygon

open Segments

variable {points : List Point} {a b c d p : Point} {i j : Nat}

/-! ## The test of two edges -/

theorem cross_toPlane : Segments.cross (toPlane a) (toPlane b) (toPlane c) = cross a b c := by
  simp [Segments.cross, cross, toPlane]

theorem onSegment_iff : onSegment a b p = true ↔ toPlane p ∈ segment ℝ (toPlane a) (toPlane b) := by
  rw [mem_segment_iff, cross_toPlane, Int.cast_eq_zero]
  simp only [onSegment, toPlane, Set.uIcc, Set.mem_Icc, Bool.and_eq_true, decide_eq_true_eq, and_assoc]
  norm_cast

theorem intersects_iff : intersects a b c d = true ↔
    ∃ q, q ∈ segment ℝ (toPlane a) (toPlane b) ∧ q ∈ segment ℝ (toPlane c) (toPlane d) := by
  rw [meets_iff]
  simp only [intersects, Bool.or_eq_true, Bool.and_eq_true, decide_eq_true_eq, onSegment_iff, Proper, Touching, cross_toPlane,
    or_assoc]
  norm_cast

/-! ## The edges of a polygon -/

theorem vertex_of_lt (hi : i < points.length) : vertex points i = points[i] := by
  rw [vertex, Nat.mod_eq_of_lt hi, List.getD_eq_getElem?_getD, List.getElem?_eq_getElem hi, Option.getD_some]

theorem vertex_mod (points : List Point) (i : Nat) : vertex points (i % points.length) = vertex points i := by
  rw [vertex, Nat.mod_mod, vertex]

theorem edge_mod (points : List Point) (i : Nat) : edge points (i % points.length) = edge points i := by
  have hnext : vertex points (i % points.length + 1) = vertex points (i + 1) := by
    rw [← vertex_mod, Nat.mod_add_mod, vertex_mod]
  rw [edge, vertex_mod, hnext, edge]

theorem edges_eq (points : List Point) :
    edges points = (List.range points.length).map fun i => (vertex points i, vertex points (i + 1)) := by
  by_cases hne : points = []
  · subst hne
    rfl
  have hpos := List.length_pos_iff.2 hne
  refine List.ext_getElem (by simp [edges]) ?_
  intro i hi _
  rw [edges] at hi
  have hi : i < points.length := by simpa using hi
  have hnext := Nat.mod_lt (i + 1) hpos
  simp only [edges]
  rw [List.getElem_zip, List.getElem_rotate, List.getElem_map, List.getElem_range, vertex_of_lt hi, ← vertex_mod points (i + 1),
    vertex_of_lt hnext]

theorem zipIdx_edges (points : List Point) : (edges points).zipIdx =
    (List.range points.length).map fun i => ((vertex points i, vertex points (i + 1)), i) := by
  rw [edges_eq]
  refine List.ext_getElem (by simp) ?_
  intro i _ _
  simp

theorem area_eq (points : List Point) : (area points : ℝ) = 2 * signedArea points := by
  have hsum : area points = ∑ i ∈ Finset.range points.length,
      ((vertex points i).1 * (vertex points (i + 1)).2 - (vertex points (i + 1)).1 * (vertex points i).2) := by
    rw [area, edges_eq, List.map_map]
    rfl
  rw [hsum, signedArea]
  push_cast [toPlane]
  ring

theorem meets_of_intersects : intersects (vertex points i) (vertex points (i + 1)) (vertex points j) (vertex points (j + 1)) = true ↔
    ¬Disjoint (edge points i) (edge points j) := by
  rw [intersects_iff, Set.not_disjoint_iff]
  rfl

/-! ## What the loops test -/

variable {n : Nat}

/-- The pairs that the loops do not pass over are those of edges that are not adjacent, in one order. -/
theorem passesOver_iff (hn : 3 ≤ n) (hj : j < n) : passesOver n i j = false ↔ i < j ∧ ¬Adjacent n i j := by
  have hi : i < j → (i + 1) % n = i + 1 := fun h => Nat.mod_eq_of_lt (by omega)
  have hwrap : (j + 1) % n = if j + 1 = n then 0 else j + 1 := by
    split_ifs with h
    · rw [h, Nat.mod_self]
    · exact Nat.mod_eq_of_lt (by omega)
  simp only [passesOver, Bool.or_eq_false_iff, Bool.and_eq_false_iff, decide_eq_false_iff_not, beq_eq_false_iff_ne, Adjacent, hwrap]
  constructor
  · rintro ⟨⟨hlt, hnext⟩, hends⟩
    have hlt : i < j := by omega
    rw [hi hlt]
    refine ⟨hlt, ?_⟩
    split_ifs <;> omega
  · rintro ⟨hlt, hadjacent⟩
    rw [hi hlt] at hadjacent
    split_ifs at hadjacent <;> omega

theorem Adjacent.symm (h : Adjacent n i j) : Adjacent n j i := Or.symm h

theorem any_intersects_iff (hn : 3 ≤ points.length) :
    ((edges points).zipIdx.any fun (e, i) => (edges points).zipIdx.any fun (f, j) =>
      !passesOver (edges points).length i j && intersects e.1 e.2 f.1 f.2) = true ↔
    ∃ i < points.length, ∃ j < points.length, i < j ∧ ¬Adjacent points.length i j ∧
      ¬Disjoint (edge points i) (edge points j) := by
  have hlength : (edges points).length = points.length := by simp [edges_eq]
  simp only [zipIdx_edges, hlength, List.any_map, List.any_eq_true, List.mem_range, Function.comp_apply, Bool.and_eq_true,
    Bool.not_eq_true']
  refine exists_congr fun i => and_congr_right fun _ => exists_congr fun j => and_congr_right fun hj => ?_
  rw [passesOver_iff hn hj, meets_of_intersects, and_assoc]

theorem validatePolygon_ok_iff (hn : 3 ≤ points.length) : validatePolygon points = .ok () ↔
    points.Nodup ∧ signedArea points ≠ 0 ∧
    ∀ i < points.length, ∀ j < points.length, i ≠ j → ¬Adjacent points.length i j → Disjoint (edge points i) (edge points j) := by
  have hdistinct : points.dedup.length = points.length ↔ points.Nodup := by
    rw [← List.dedup_eq_self]
    exact ⟨(List.dedup_sublist points).eq_of_length, congrArg List.length⟩
  have harea : area points = 0 ↔ signedArea points = 0 := by
    rw [← @Int.cast_eq_zero ℝ, area_eq, mul_eq_zero, or_iff_right two_ne_zero]
  have hpairs := any_intersects_iff hn
  unfold validatePolygon
  dsimp only
  by_cases hnodup : points.Nodup
  · rw [if_neg (not_not.2 (hdistinct.2 hnodup))]
    by_cases hzero : area points = 0
    · rw [if_pos hzero]
      simp [harea.1 hzero]
    · rw [if_neg hzero]
      rw [harea] at hzero
      by_cases hany : ∃ i < points.length, ∃ j < points.length, i < j ∧ ¬Adjacent points.length i j ∧
          ¬Disjoint (edge points i) (edge points j)
      · rw [if_pos (hpairs.2 hany)]
        obtain ⟨i, hi, j, hj, hlt, hadjacent, hmeet⟩ := hany
        exact iff_of_false (by rintro ⟨⟩) fun h => hmeet (h.2.2 i hi j hj hlt.ne hadjacent)
      · rw [if_neg (mt hpairs.1 hany)]
        refine iff_of_true rfl ⟨hnodup, hzero, ?_⟩
        intro i hi j hj hne hadjacent
        by_contra hmeet
        rcases lt_or_gt_of_ne hne with hlt | hgt
        · exact hany ⟨i, hi, j, hj, hlt, hadjacent, hmeet⟩
        · exact hany ⟨j, hj, i, hi, hgt, fun h => hadjacent h.symm, fun h => hmeet h.symm⟩
  · rw [if_pos (mt hdistinct.1 hnodup)]
    simp [hnodup]

/-! ## Adjacent edges -/

theorem not_adjacent_two (hn : 4 ≤ n) (hi : i < n) : (i + 2) % n ≠ i ∧ ¬Adjacent n i ((i + 2) % n) := by
  have hwrap : ∀ k ≤ 3, (i + k) % n = if i + k < n then i + k else i + k - n := by
    intro k hk
    split_ifs with h
    · exact Nat.mod_eq_of_lt h
    · rw [Nat.mod_eq_sub_mod (by omega), Nat.mod_eq_of_lt (by omega)]
  have h1 := hwrap 1 (by omega)
  have h2 := hwrap 2 (by omega)
  have h3 := hwrap 3 (by omega)
  have hthird : ((i + 2) % n + 1) % n = (i + 3) % n := Nat.mod_add_mod _ _ _
  rw [Adjacent, hthird, h1, h2, h3]
  split_ifs <;> omega

/-- A triangle's doubled area is the orientation of its vertices, from any of them. -/
theorem area_triangle (hn : points.length = 3) (hi : i < 3) :
    area points = cross (vertex points i) (vertex points (i + 1)) (vertex points (i + 2)) := by
  obtain ⟨a, b, c, rfl⟩ := List.length_eq_three.1 hn
  have harea : area [a, b, c] = a.1 * b.2 - b.1 * a.2 + (b.1 * c.2 - c.1 * b.2 + (c.1 * a.2 - a.1 * c.2)) := by
    simp [area, edges]
  rw [harea]
  interval_cases i <;> simp [vertex, cross] <;> ring

/-- Overlapping adjacent edges have an edge that is not adjacent and meets one of them, or the polygon is a flat triangle. -/
theorem overlap_excluded (hn : 3 ≤ points.length) (hi : i < points.length) (harea : signedArea points ≠ 0)
    (hapart : ∀ i < points.length, ∀ j < points.length, i ≠ j → ¬Adjacent points.length i j →
      Disjoint (edge points i) (edge points j)) :
    toPlane (vertex points (i + 2)) ∉ edge points i ∧ toPlane (vertex points i) ∉ edge points (i + 1) := by
  rcases hn.eq_or_lt with hthree | hfour
  · have hcross : (cross (vertex points i) (vertex points (i + 1)) (vertex points (i + 2)) : ℝ) ≠ 0 := by
      rw [← area_triangle hthree.symm (by omega), area_eq]
      exact mul_ne_zero two_ne_zero harea
    rw [← cross_toPlane] at hcross
    refine ⟨fun hmem => hcross (mem_segment_iff.1 hmem).1, fun hmem => hcross ?_⟩
    rw [← (mem_segment_iff.1 hmem).1]
    unfold Segments.cross
    ring
  · have hdisjoint : ∀ k < points.length, Disjoint (edge points k) (edge points (k + 2)) := by
      intro k hk
      obtain ⟨hne, hadjacent⟩ := not_adjacent_two hfour hk
      rw [← edge_mod points (k + 2)]
      exact hapart k hk _ (Nat.mod_lt _ (by omega)) hne.symm hadjacent
    constructor
    · intro hmem
      exact Set.disjoint_left.1 (hdisjoint i hi) hmem (left_mem_segment ℝ _ _)
    · intro hmem
      -- the edge before ends at the vertex
      let k := (i + points.length - 1) % points.length
      have hk : k < points.length := Nat.mod_lt _ (by omega)
      have hsucc : ∀ m, (k + (m + 1)) % points.length = (i + m) % points.length := by
        intro m
        rw [Nat.mod_add_mod, show i + points.length - 1 + (m + 1) = i + m + points.length by omega, Nat.add_mod_right]
      have hend : toPlane (vertex points i) ∈ edge points k := by
        rw [← vertex_mod points i, ← Nat.add_zero i, ← hsucc 0, vertex_mod]
        exact right_mem_segment ℝ _ _
      have hnext : edge points (k + 2) = edge points (i + 1) := by
        rw [← edge_mod, hsucc 1, edge_mod]
      exact Set.disjoint_left.1 (hdisjoint k hk) hend (hnext ▸ hmem)

theorem adjacent_joined (h : toPlane (vertex points (i + 2)) ∉ edge points i ∧ toPlane (vertex points i) ∉ edge points (i + 1)) :
    edge points i ∩ edge points (i + 1) = {toPlane (vertex points (i + 1))} := by
  refine Set.Subset.antisymm ?_ ?_
  · rintro q ⟨hfirst, hsecond⟩
    rw [Set.mem_singleton_iff]
    by_contra hne
    rw [edge, segment_symm] at hfirst
    rcases overlap_of_meets hfirst hsecond hne with hmem | hmem
    · rw [segment_symm] at hmem
      exact h.1 hmem
    · exact h.2 hmem
  · rw [Set.singleton_subset_iff]
    exact ⟨right_mem_segment ℝ _ _, left_mem_segment ℝ _ _⟩

/-- Validation accepts exactly the simple polygons. -/
theorem validatePolygon_iff_simple (points : List Point) (hn : 3 ≤ points.length) :
    validatePolygon points = .ok () ↔ Simple points := by
  rw [validatePolygon_ok_iff hn]
  constructor
  · rintro ⟨hnodup, harea, hapart⟩
    exact ⟨hnodup, harea, hapart, fun i hi => adjacent_joined (overlap_excluded hn hi harea hapart)⟩
  · intro h
    exact ⟨h.distinct, h.area, h.apart⟩

/-- A notched quadrilateral is accepted, so it is simple. -/
theorem validatePolygon_iff_simple_notched : Simple [(0, 0), (4, 0), (1, 1), (0, 4)] :=
  (validatePolygon_iff_simple [(0, 0), (4, 0), (1, 1), (0, 4)] (by decide)).1 (by decide)

end Sentinel.Detection.Polygon
