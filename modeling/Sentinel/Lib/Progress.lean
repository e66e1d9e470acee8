import Mathlib.Tactic

/-!
# Progress in endless runs

A rank that no step raises while a condition holds, and that falls whenever a step of the kind that helps at this rank is
taken, ends the condition if every kind of step is taken again and again.
-/

namespace Sentinel

variable {σ α : Type} {state : Nat → σ} {action : Nat → α} {P : σ → Prop} {rank : σ → Nat} {helps : Nat → α → Prop}

theorem rank_stays (hstep : ∀ n, P (state n) → ¬P (state (n + 1)) ∨ rank (state (n + 1)) ≤ rank (state n)) {n : Nat}
    (hn : P (state n)) (k : Nat) :
    (∃ m, n ≤ m ∧ (¬P (state m) ∨ rank (state m) < rank (state n))) ∨
      P (state (n + k)) ∧ rank (state (n + k)) = rank (state n) := by
  induction k with
  | zero => exact .inr ⟨hn, rfl⟩
  | succ k ih =>
    rcases ih with hdone | ⟨hP, hrank⟩
    · exact .inl hdone
    by_cases hnext : P (state (n + k + 1))
    · have hle := (hstep (n + k) hP).resolve_left (not_not.mpr hnext)
      by_cases hlt : rank (state (n + k + 1)) < rank (state n)
      · exact .inl ⟨n + k + 1, by omega, .inr hlt⟩
      · exact .inr ⟨hnext, by rw [← Nat.add_assoc]; omega⟩
    · exact .inl ⟨n + k + 1, by omega, .inl hnext⟩

theorem eventually_not (hfair : ∀ r n, ∃ m, n ≤ m ∧ helps r (action m))
    (hstep : ∀ n, P (state n) → ¬P (state (n + 1)) ∨ rank (state (n + 1)) ≤ rank (state n))
    (hhelp : ∀ n, P (state n) → helps (rank (state n)) (action n) →
      ¬P (state (n + 1)) ∨ rank (state (n + 1)) < rank (state n)) (n : Nat) : ∃ m, n ≤ m ∧ ¬P (state m) := by
  induction hr : rank (state n) using Nat.strong_induction_on generalizing n with
  | _ r ih =>
    by_cases hn : P (state n)
    swap
    · exact ⟨n, le_rfl, hn⟩
    -- the helping step, if the rank has not fallen before
    obtain ⟨m, hnm, hhelps⟩ := hfair r n
    obtain ⟨k, rfl⟩ := Nat.exists_eq_add_of_le hnm
    have hfallen : ∃ m, n ≤ m ∧ (¬P (state m) ∨ rank (state m) < rank (state n)) := by
      rcases rank_stays hstep hn k with hdone | ⟨hP, hrank⟩
      · exact hdone
      · refine ⟨n + k + 1, by omega, ?_⟩
        rw [← hrank]
        exact hhelp (n + k) hP (by rwa [hrank, hr])
    obtain ⟨m, hm, hnot | hlt⟩ := hfallen
    · exact ⟨m, hm, hnot⟩
    · obtain ⟨m', hm', hnot⟩ := ih _ (hr ▸ hlt) m rfl
      exact ⟨m', hm.trans hm', hnot⟩

end Sentinel
