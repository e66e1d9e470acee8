import Mathlib.Tactic

/-!
# Histories of a deterministic machine

A machine is a step function from an input and a state to an output and the next state. A history
lists the steps taken, the latest one first; `Reaches step init h s` says that the steps of `h` lead
from `init` to `s`. Properties of whole runs are stated over the history and proved by induction on
`Reaches`.
-/

namespace Sentinel

variable {σ ι ο : Type*}

/-- One completed step of a machine. -/
structure Event (σ ι ο : Type*) where
  before : σ
  input : ι
  output : ο
  after : σ

/-- The step taken from `s` on input `i`. -/
def Event.of (step : ι → σ → ο × σ) (s : σ) (i : ι) : Event σ ι ο :=
  ⟨s, i, (step i s).1, (step i s).2⟩

/-- The steps of the history lead from `init` to the state. -/
inductive Reaches (step : ι → σ → ο × σ) (init : σ) : List (Event σ ι ο) → σ → Prop
  | start : Reaches step init [] init
  | next {h : List (Event σ ι ο)} {s : σ} (hs : Reaches step init h s) (i : ι) :
      Reaches step init (Event.of step s i :: h) (step i s).2

/-- The history of the inputs, taken in order from `init`, and the state they lead to. -/
def perform (step : ι → σ → ο × σ) (init : σ) (inputs : List ι) : List (Event σ ι ο) × σ :=
  inputs.foldl (fun run i => (Event.of step run.2 i :: run.1, (step i run.2).2)) ([], init)

namespace Reaches

variable {step : ι → σ → ο × σ} {init s : σ} {h later earlier : List (Event σ ι ο)}
  {e : Event σ ι ο}

theorem perform (step : ι → σ → ο × σ) (init : σ) (inputs : List ι) :
    Reaches step init (Sentinel.perform step init inputs).1 (Sentinel.perform step init inputs).2 := by
  induction inputs using List.reverseRecOn with
  | nil => exact start
  | append_singleton inputs i ih =>
    unfold Sentinel.perform at ih ⊢
    rw [List.foldl_append]
    exact next ih i

/-- A history can be cut anywhere: what was done before a cut is a history of its own. -/
theorem of_append (hs : Reaches step init (later ++ earlier) s) :
    ∃ s', Reaches step init earlier s' := by
  induction later generalizing s with
  | nil => exact ⟨s, hs⟩
  | cons e later ih =>
    cases hs with
    | next hs i => exact ih hs

theorem of_cons (hs : Reaches step init (e :: h) s) : Reaches step init h e.before := by
  cases hs with
  | next hs i => exact hs

theorem head (hs : Reaches step init (e :: h) s) : e = Event.of step e.before e.input := by
  cases hs with
  | next hs i => rfl

/-- Every event of a history is a step of the machine, taken in the state that the earlier events
lead to. -/
theorem event (hs : Reaches step init (later ++ e :: earlier) s) :
    Reaches step init earlier e.before ∧ e = Event.of step e.before e.input := by
  obtain ⟨s', hs'⟩ := of_append hs
  cases hs' with
  | next hs i => exact ⟨hs, rfl⟩

theorem event_of_mem (hs : Reaches step init h s) (he : e ∈ h) :
    ∃ earlier, Reaches step init earlier e.before ∧ e = Event.of step e.before e.input := by
  obtain ⟨later, earlier, rfl⟩ := List.append_of_mem he
  exact ⟨earlier, hs.event⟩

/-- A later event of a history is taken in a state that the earlier ones lead to, with some of the later ones between. -/
theorem event_after (hs : Reaches step init (later ++ earlier) s) (he : e ∈ later) :
    ∃ between, Reaches step init (between ++ earlier) e.before ∧ e = Event.of step e.before e.input := by
  obtain ⟨newer, between, rfl⟩ := List.append_of_mem he
  rw [List.append_assoc] at hs
  exact ⟨between, hs.event⟩

/-- Induction on the steps since an event of a history. -/
theorem since {P : List (Event σ ι ο) → σ → Prop} (hs : Reaches step init (later ++ e :: earlier) s) (h0 : P [] e.after)
    (hstep : ∀ {later s} i, Reaches step init (later ++ e :: earlier) s → P later s →
      P (Event.of step s i :: later) (step i s).2) :
    P later s := by
  induction later generalizing s with
  | nil =>
    cases hs with
    | next hs i => exact h0
  | cons x later ih =>
    cases hs with
    | next hs i => exact hstep i hs (ih hs)

theorem after_eq (hs : Reaches step init (e :: h) s) : s = e.after := by
  cases hs with
  | next hs i => rfl

/-- An invariant of the state that `init` satisfies and every step keeps holds in every state
reached. -/
theorem invariant {P : σ → Prop} (h0 : P init) (hstep : ∀ i s, P s → P (step i s).2)
    (hs : Reaches step init h s) : P s := by
  induction hs with
  | start => exact h0
  | next hs i ih => exact hstep i _ ih

/-- What the events of a history keep holds after each of them. -/
theorem forall_after {P : σ → Prop} (h0 : P init) (hs : Reaches step init h s) (hkeep : ∀ e ∈ h, P e.before → P e.after) :
    P s ∧ ∀ e ∈ h, P e.after := by
  induction hs with
  | start => exact ⟨h0, List.forall_mem_nil _⟩
  | next hs i ih =>
    obtain ⟨hnew, hold⟩ := List.forall_mem_cons.1 hkeep
    obtain ⟨hbefore, hafter⟩ := ih hold
    exact ⟨hnew hbefore, List.forall_mem_cons.2 ⟨hnew hbefore, hafter⟩⟩

/-- The same for the steps whose inputs satisfy a condition that all inputs of the history meet. -/
theorem invariant_of {P : σ → Prop} {C : ι → Prop} (h0 : P init)
    (hstep : ∀ i s, C i → P s → P (step i s).2) (hs : Reaches step init h s)
    (hC : ∀ e ∈ h, C e.input) : P s := by
  induction hs with
  | start => exact h0
  | next hs i ih =>
    exact hstep i _ (hC _ List.mem_cons_self) (ih fun e he => hC e (List.mem_cons_of_mem _ he))

end Reaches

end Sentinel
