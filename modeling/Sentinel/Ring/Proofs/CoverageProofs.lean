import Sentinel.Ring.Models
import Sentinel.Lib.Tiling

/-!
# Coverage reports are exact

The merge goes through the clipped intervals, whose left ends are still in order after the sort by unclipped ends. `Merged`
is its invariant. The gaps complete the merged intervals to a tiling of the reported window.
-/

namespace Sentinel.Ring

instance : Std.Total fun a b : Int × Int => pairLe a b = true := ⟨fun a b => by simp only [pairLe]; grind⟩

instance : IsTrans (Int × Int) fun a b => pairLe a b = true := ⟨fun a b c => by simp only [pairLe]; grind⟩

variable {done merged l : List (Int × Int)} {i : Int × Int} {start stop cursor : Int}

/-- The intervals in `done` merged, the latest first. -/
structure Merged (done merged : List (Int × Int)) : Prop where
  apart : merged.Pairwise fun later earlier => earlier.2 < later.1
  proper : ∀ i ∈ merged, i.1 < i.2
  starts : ∀ i ∈ merged, ∃ j ∈ done, j.1 = i.1
  covers : ∀ x, (∃ i ∈ merged, i.1 ≤ x ∧ x < i.2) ↔ ∃ i ∈ done, i.1 ≤ x ∧ x < i.2

theorem Merged.nil : Merged [] [] := ⟨List.Pairwise.nil, nofun, nofun, by simp⟩

/-- One round of the merge, with an interval that does not start before those that were merged. -/
theorem Merged.step (h : Merged done merged) (hproper : i.1 < i.2) (hle : ∀ j ∈ done, j.1 ≤ i.1) :
    Merged (i :: done) (mergeStep merged i) := by
  have hstarts : ∀ k ∈ merged, k.1 ≤ i.1 := by
    intro k hk
    obtain ⟨j, hj, heq⟩ := h.starts k hk
    have := hle j hj
    omega
  cases merged with
  | nil =>
    refine ⟨List.pairwise_singleton _ _, ?_, ?_, ?_⟩
    · simpa [mergeStep] using hproper
    · simp [mergeStep]
    · intro x
      have hdone := h.covers x
      simp only [List.not_mem_nil, false_and, exists_false, false_iff] at hdone
      simp [mergeStep, hdone]
  | cons latest rest =>
    obtain ⟨left, right⟩ := latest
    have hlatest : left < right := h.proper (left, right) List.mem_cons_self
    have hleft : left ≤ i.1 := hstarts (left, right) List.mem_cons_self
    obtain ⟨happart, hrest⟩ := List.pairwise_cons.1 h.apart
    unfold mergeStep
    dsimp only
    split_ifs with htouch
    · refine ⟨List.pairwise_cons.2 ⟨happart, hrest⟩, ?_, ?_, ?_⟩
      · refine List.forall_mem_cons.2 ⟨?_, fun k hk => h.proper k (List.mem_cons_of_mem _ hk)⟩
        show left < max i.2 right
        omega
      · refine List.forall_mem_cons.2 ⟨?_, ?_⟩
        · obtain ⟨j, hj, heq⟩ := h.starts (left, right) List.mem_cons_self
          exact ⟨j, List.mem_cons_of_mem _ hj, heq⟩
        · intro k hk
          obtain ⟨j, hj, heq⟩ := h.starts k (List.mem_cons_of_mem _ hk)
          exact ⟨j, List.mem_cons_of_mem _ hj, heq⟩
      · intro x
        have hdone := h.covers x
        rw [List.exists_mem_cons_iff] at hdone ⊢
        rw [List.exists_mem_cons_iff, ← hdone]
        have hunion : (left ≤ x ∧ x < max i.2 right) ↔ (i.1 ≤ x ∧ x < i.2) ∨ (left ≤ x ∧ x < right) := by omega
        dsimp only
        rw [hunion]
        exact or_assoc
    · refine ⟨List.pairwise_cons.2 ⟨?_, h.apart⟩, List.forall_mem_cons.2 ⟨hproper, h.proper⟩, ?_, ?_⟩
      · refine List.forall_mem_cons.2 ⟨by omega, ?_⟩
        intro k hk
        have := happart k hk
        dsimp only at this
        omega
      · refine List.forall_mem_cons.2 ⟨⟨i, List.mem_cons_self, rfl⟩, ?_⟩
        intro k hk
        obtain ⟨j, hj, heq⟩ := h.starts k hk
        exact ⟨j, List.mem_cons_of_mem _ hj, heq⟩
      · intro x
        rw [List.exists_mem_cons_iff, h.covers x, List.exists_mem_cons_iff]

theorem Merged.foldl (h : Merged done merged) (hproper : ∀ i ∈ l, i.1 < i.2) (hsorted : l.Pairwise fun a b => a.1 ≤ b.1)
    (hle : ∀ j ∈ done, ∀ i ∈ l, j.1 ≤ i.1) : Merged (l.reverse ++ done) (l.foldl mergeStep merged) := by
  induction l generalizing done merged with
  | nil => exact h
  | cons i l ih =>
    obtain ⟨hfirst, hrest⟩ := List.pairwise_cons.1 hsorted
    have hstep := h.step (hproper i List.mem_cons_self) fun j hj => hle j hj i List.mem_cons_self
    have hnext := ih hstep (fun k hk => hproper k (List.mem_cons_of_mem _ hk)) hrest ?_
    · simpa using hnext
    · intro j hj k hk
      rcases List.mem_cons.1 hj with rfl | hj
      · exact hfirst k hk
      · exact hle j hj k (List.mem_cons_of_mem _ hk)

/-- The intervals of the loop: clipped to the window, without those that are empty there. -/
def clipped (intervals : List (Int × Int)) (start stop : Int) : List (Int × Int) :=
  ((intervals.insertionSort fun a b => pairLe a b).map fun interval =>
    (max interval.1 start, min interval.2 stop)).filter fun interval => interval.1 < interval.2

theorem clipped_proper (intervals : List (Int × Int)) : ∀ i ∈ clipped intervals start stop, i.1 < i.2 := by
  intro i hi
  exact of_decide_eq_true (List.mem_filter.1 hi).2

theorem clipped_sorted (intervals : List (Int × Int)) : (clipped intervals start stop).Pairwise fun a b => a.1 ≤ b.1 := by
  refine List.Pairwise.filter _ (List.pairwise_map.2 ?_)
  refine (List.pairwise_insertionSort (fun a b : Int × Int => pairLe a b) intervals).imp ?_
  intro a b hab
  have hle : a.1 ≤ b.1 := by
    simp only [pairLe, Bool.or_eq_true, Bool.and_eq_true, decide_eq_true_eq, beq_iff_eq] at hab
    omega
  show max a.1 start ≤ max b.1 start
  omega

theorem clipped_covers (intervals : List (Int × Int)) (x : Int) :
    (∃ i ∈ clipped intervals start stop, i.1 ≤ x ∧ x < i.2) ↔
      (start ≤ x ∧ x < stop) ∧ ∃ i ∈ intervals, i.1 ≤ x ∧ x < i.2 := by
  constructor
  · rintro ⟨i, hi, hx⟩
    obtain ⟨j, hj, rfl⟩ := List.mem_map.1 (List.mem_filter.1 hi).1
    rw [List.mem_insertionSort] at hj
    dsimp only at hx
    exact ⟨by omega, j, hj, by omega⟩
  · rintro ⟨hwindow, j, hj, hx⟩
    refine ⟨(max j.1 start, min j.2 stop), List.mem_filter.2 ⟨List.mem_map.2 ⟨j, ?_, rfl⟩, ?_⟩, ?_⟩
    · exact (List.mem_insertionSort _).2 hj
    · simp only [decide_eq_true_eq]
      omega
    · dsimp only
      omega

theorem merged_clipped (intervals : List (Int × Int)) (start stop : Int) :
    Merged (clipped intervals start stop).reverse (intervalsAndGaps intervals start stop).1.reverse := by
  have hmerged := Merged.nil.foldl (@clipped_proper start stop intervals) (clipped_sorted intervals) nofun
  rw [List.append_nil] at hmerged
  rwa [intervalsAndGaps, List.reverse_reverse]

/-! ## The gaps -/

/-- Intervals in order that lie between the cursor and the end. -/
structure Within (cursor stop : Int) (merged : List (Int × Int)) : Prop where
  apart : merged.Pairwise fun earlier later => earlier.2 < later.1
  proper : ∀ i ∈ merged, i.1 < i.2
  inside : ∀ i ∈ merged, cursor ≤ i.1 ∧ i.2 ≤ stop
  cursor_le : cursor ≤ stop

theorem Within.tail (h : Within cursor stop (i :: merged)) : Within i.2 stop merged := by
  obtain ⟨happart, hrest⟩ := List.pairwise_cons.1 h.apart
  refine ⟨hrest, fun k hk => h.proper k (List.mem_cons_of_mem _ hk), ?_, (h.inside i List.mem_cons_self).2⟩
  intro k hk
  exact ⟨(happart k hk).le, (h.inside k (List.mem_cons_of_mem _ hk)).2⟩

/-- The gaps are in order, after the cursor, and complete the intervals to a tiling. -/
theorem Within.gaps (h : Within cursor stop merged) :
    (∀ g ∈ gapsFrom stop cursor merged, cursor ≤ g.1 ∧ g.1 < g.2) ∧
      (gapsFrom stop cursor merged).Pairwise (fun earlier later => earlier.2 ≤ later.1) ∧
      Tiles ((merged ++ gapsFrom stop cursor merged).map fun i => Set.Ico i.1 i.2) cursor stop := by
  induction merged generalizing cursor with
  | nil =>
    unfold gapsFrom
    split_ifs with hlt
    · refine ⟨by simpa using hlt, List.pairwise_singleton _ _, ?_⟩
      exact (Tiles.nil stop).cons hlt.le le_rfl
    · have heq : cursor = stop := le_antisymm h.cursor_le (not_lt.1 hlt)
      rw [heq]
      exact ⟨nofun, List.Pairwise.nil, Tiles.nil stop⟩
  | cons i merged ih =>
    obtain ⟨hafter, hordered, htiles⟩ := ih h.tail
    have hproper := h.proper i List.mem_cons_self
    obtain ⟨hleft, hright⟩ := h.inside i List.mem_cons_self
    have hgrown := htiles.cons hproper.le hright
    unfold gapsFrom
    split_ifs with hlt
    · refine ⟨?_, ?_, ?_⟩
      · refine List.forall_mem_cons.2 ⟨⟨le_rfl, hlt⟩, ?_⟩
        intro g hg
        have := hafter g hg
        omega
      · refine List.pairwise_cons.2 ⟨?_, hordered⟩
        intro g hg
        have := hafter g hg
        show i.1 ≤ g.1
        omega
      · refine (hgrown.cons hlt.le (by omega)).perm ?_
        simp only [List.map_append, List.map_cons, List.cons_append]
        exact (List.Perm.swap _ _ _).trans (List.perm_middle.symm.cons _)
    · have heq : cursor = i.1 := le_antisymm hleft (not_lt.1 hlt)
      refine ⟨?_, hordered, ?_⟩
      · intro g hg
        have := hafter g hg
        omega
      · rw [heq]
        simpa using hgrown

/-- What `intervals_and_gaps` returns is exact. The coverage is sorted, and its intervals are apart; the gaps are sorted and
disjoint; no interval is empty; together they tile the window; and an instant of the window is covered exactly when it is in
an interval that was given. -/
theorem coverage_exact (intervals : List (Int × Int)) (start stop : Int) :
    let merged := (intervalsAndGaps intervals start stop).1
    let gaps := (intervalsAndGaps intervals start stop).2
    merged.Pairwise (fun earlier later => earlier.2 < later.1) ∧ gaps.Pairwise (fun earlier later => earlier.2 ≤ later.1) ∧
      (∀ i ∈ merged ++ gaps, i.1 < i.2) ∧ Tiles ((merged ++ gaps).map fun i => Set.Ico i.1 i.2) start stop ∧
      ∀ x, start ≤ x → x < stop →
        ((∃ i ∈ merged, i.1 ≤ x ∧ x < i.2) ↔ ∃ i ∈ intervals, i.1 ≤ x ∧ x < i.2) := by
  intro merged gaps
  have hmerged : Merged (clipped intervals start stop).reverse merged.reverse := merged_clipped intervals start stop
  have hcovers (x : Int) : (∃ i ∈ merged, i.1 ≤ x ∧ x < i.2) ↔
      (start ≤ x ∧ x < stop) ∧ ∃ i ∈ intervals, i.1 ≤ x ∧ x < i.2 := by
    have := hmerged.covers x
    simp only [List.mem_reverse] at this
    rw [this, clipped_covers]
  have hproper : ∀ i ∈ merged, i.1 < i.2 := fun i hi => hmerged.proper i (List.mem_reverse.2 hi)
  have hapart : merged.Pairwise fun earlier later => earlier.2 < later.1 := List.pairwise_reverse.1 hmerged.apart
  -- both ends of a merged interval are covered up to the end, so they are in the window
  have hinside : ∀ i ∈ merged, start ≤ i.1 ∧ i.2 ≤ stop := by
    intro i hi
    have hlt := hproper i hi
    have hfirst := (hcovers i.1).1 ⟨i, hi, le_rfl, hlt⟩
    have hlast := (hcovers (i.2 - 1)).1 ⟨i, hi, by omega, by omega⟩
    omega
  have hexact : ∀ x, start ≤ x → x < stop → ((∃ i ∈ merged, i.1 ≤ x ∧ x < i.2) ↔ ∃ i ∈ intervals, i.1 ≤ x ∧ x < i.2) := by
    intro x hstart hstop
    rw [hcovers x]
    exact and_iff_right ⟨hstart, hstop⟩
  rcases le_or_gt start stop with hle | hgt
  · obtain ⟨hafter, hordered, htiles⟩ := (⟨hapart, hproper, hinside, hle⟩ : Within start stop merged).gaps
    refine ⟨hapart, hordered, ?_, htiles, hexact⟩
    exact List.forall_mem_append.2 ⟨hproper, fun g hg => (hafter g hg).2⟩
  · have hnil : merged = [] := by
      rw [List.eq_nil_iff_forall_not_mem]
      intro i hi
      have := hproper i hi
      have := hinside i hi
      omega
    have hgaps : gaps = [] := by
      show gapsFrom stop start merged = []
      rw [hnil]
      exact if_neg hgt.not_gt
    refine ⟨hapart, ?_, ?_, ?_, hexact⟩
    · rw [hgaps]
      exact List.Pairwise.nil
    · rw [hgaps, hnil]
      exact nofun
    · rw [hgaps, hnil]
      refine ⟨List.Pairwise.nil, ?_⟩
      simp [Set.Ico_eq_empty hgt.not_gt]

end Sentinel.Ring
