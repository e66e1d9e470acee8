import Sentinel.Lib.History

/-!
# Threads that share memory

Each thread stands at a program point; a step of the system is one step of one thread, which reads and writes the shared
memory and moves to its next point. A proof gives an assertion about the shared memory and one for every thread at its
program point, both of which may mention what was observed so far, and shows that a step of a thread keeps its own
assertions and those of the other threads.
-/

namespace Sentinel

variable {τ σ π ι ο : Type*}

/-- The shared memory and the program points of the threads. -/
structure Threads (τ σ π : Type*) where
  shared : σ
  pc : τ → π

namespace Threads

/-- What a thread at a program point does next: what is observed of it, its next point, and the shared memory. -/
abbrev Move (τ σ π ι ο : Type*) := ι → τ → π → σ → ο × π × σ

variable [DecidableEq τ]

def step (move : Move τ σ π ι ο) (i : τ × ι) (s : Threads τ σ π) : ο × Threads τ σ π :=
  let m := move i.2 i.1 (s.pc i.1) s.shared
  (m.1, ⟨m.2.2, Function.update s.pc i.1 m.2.1⟩)

/-- What was observed in a run, the latest first. -/
def observed (h : List (Event (Threads τ σ π) (τ × ι) ο)) : List ο := h.map Event.output

/-- The assertions of all threads and of the shared memory hold. -/
structure Holds (I : List ο → σ → Prop) (A : τ → π → List ο → σ → Prop) (out : List ο) (s : Threads τ σ π) :
    Prop where
  shared : I out s.shared
  thread : ∀ t, A t (s.pc t) out s.shared

variable {move : Move τ σ π ι ο} {I : List ο → σ → Prop} {A : τ → π → List ο → σ → Prop}
  {C : Event (Threads τ σ π) (τ × ι) ο → Prop} {init s : Threads τ σ π}
  {h : List (Event (Threads τ σ π) (τ × ι) ο)}

/-- Assertions that hold at the start, that a step of a thread keeps for itself and that it keeps for every other
thread, hold in every state reached by steps that meet the condition. -/
theorem invariant (h0 : Holds I A [] init)
    (own : ∀ (i : ι) (t : τ) (s : Threads τ σ π) (out : List ο), C (Event.of (step move) s (t, i)) →
      Holds I A out s → let m := move i t (s.pc t) s.shared; I (m.1 :: out) m.2.2 ∧ A t m.2.1 (m.1 :: out) m.2.2)
    (other : ∀ (i : ι) (t u : τ) (s : Threads τ σ π) (out : List ο), C (Event.of (step move) s (t, i)) → u ≠ t →
      Holds I A out s → let m := move i t (s.pc t) s.shared; A u (s.pc u) (m.1 :: out) m.2.2)
    (hs : Reaches (step move) init h s) (hC : ∀ e ∈ h, C e) : Holds I A (observed h) s := by
  induction hs with
  | start => exact h0
  | @next h s hs i ih =>
    have hold := ih fun e he => hC e (List.mem_cons_of_mem _ he)
    obtain ⟨t, i⟩ := i
    obtain ⟨hshared, hthread⟩ := own i t s _ (hC _ List.mem_cons_self) hold
    refine ⟨hshared, fun u => ?_⟩
    by_cases hu : u = t
    · subst hu
      simpa [step, observed, Event.of] using hthread
    · simpa [step, observed, Event.of, hu] using other i t u s _ (hC _ List.mem_cons_self) hu hold

end Threads

end Sentinel
