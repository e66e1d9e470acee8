import Mathlib.Tactic

/-!
# Programs with failures

A program over states `σ` runs to a value or stops with a failure. What it did to the state before a
failure stays done, so a failure is seen by the state as well as by the caller. `Triple P p Q E` says
that, run from a state that satisfies `P`, the program `p` either returns a value and a state that
satisfy `Q` or fails with a failure and a state that satisfy `E`. The rules below take a program
apart along its own structure.
-/

namespace Sentinel

/-- A program: from a state to its result and the state it leaves. -/
def Program (σ ε α : Type) := σ → Except ε α × σ

namespace Program

variable {σ ε α β : Type}

instance : Monad (Program σ ε) where
  pure a := fun s => (.ok a, s)
  bind p f := fun s =>
    match p s with
    | (.ok a, s) => f a s
    | (.error e, s) => (.error e, s)

/-- Stop with a failure. -/
def fail (e : ε) : Program σ ε α := fun s => (.error e, s)

/-- Run `p`; on a failure go on with the handler, in the state the failure left. -/
def handle (p : Program σ ε α) (handler : ε → Program σ ε α) : Program σ ε α := fun s =>
  match p s with
  | (.ok a, s) => (.ok a, s)
  | (.error e, s) => handler e s

/-- Run `p` and then, whether it failed or not, `q`; a failure of `q` replaces the outcome. -/
def ensure (p : Program σ ε α) (q : Program σ ε Unit) : Program σ ε α := fun s =>
  match p s with
  | (r, s) =>
    match q s with
    | (.ok _, s) => (r, s)
    | (.error e, s) => (.error e, s)

def read (f : σ → α) : Program σ ε α := fun s => (.ok (f s), s)

def modify (f : σ → σ) : Program σ ε Unit := fun s => (.ok (), f s)

/-- Stop with `e` unless the condition holds. -/
def require (c : Prop) [Decidable c] (e : ε) : Program σ ε Unit := if c then pure () else fail e

/-- Run `p` only if the condition holds. -/
def whenever (c : Prop) [Decidable c] (p : Program σ ε Unit) : Program σ ε Unit :=
  if c then p else pure ()

/-- The result of a computation without effects. -/
def lift : Except ε α → Program σ ε α
  | .ok a => pure a
  | .error e => fail e

/-- Run the body for every element in turn. -/
def forEach (body : α → Program σ ε Unit) : List α → Program σ ε Unit
  | [] => pure ()
  | a :: rest => do
    body a
    forEach body rest

/-! ## Triples -/

/-- Total correctness with two exits. -/
def Triple (P : σ → Prop) (p : Program σ ε α) (Q : α → σ → Prop) (E : ε → σ → Prop) : Prop :=
  ∀ s, P s →
    match p s with
    | (.ok a, s') => Q a s'
    | (.error e, s') => E e s'

/-- From `P` the program ends in `Q` on both exits. -/
def Leads (P : σ → Prop) (p : Program σ ε α) (Q : σ → Prop) : Prop := Triple P p (fun _ => Q) fun _ => Q

/-- The program keeps `I` on both exits. -/
def Keeps (I : σ → Prop) (p : Program σ ε α) : Prop := Triple I p (fun _ => I) fun _ => I

variable {P P' : σ → Prop} {Q Q' : α → σ → Prop} {E E' : ε → σ → Prop} {p : Program σ ε α}

theorem Triple.conseq (h : Triple P p Q E) (hP : ∀ s, P' s → P s) (hQ : ∀ a s, Q a s → Q' a s)
    (hE : ∀ e s, E e s → E' e s) : Triple P' p Q' E' := by
  intro s hs
  have := h s (hP s hs)
  rcases hp : p s with ⟨r, s'⟩
  rw [hp] at this
  cases r with
  | ok a => exact hQ a s' this
  | error e => exact hE e s' this

theorem Triple.and (h : Triple P p Q E) (h' : Triple P' p Q' E') :
    Triple (fun s => P s ∧ P' s) p (fun a s => Q a s ∧ Q' a s) fun e s => E e s ∧ E' e s := by
  intro s hs
  have hp := h s hs.1
  have hp' := h' s hs.2
  rcases hrun : p s with ⟨r, s'⟩
  rw [hrun] at hp hp'
  cases r with
  | ok a => exact ⟨hp, hp'⟩
  | error e => exact ⟨hp, hp'⟩

theorem Triple.strengthen (h : Triple P p Q E) (hP : ∀ s, P' s → P s) : Triple P' p Q E :=
  h.conseq hP (fun _ _ h => h) fun _ _ h => h

theorem Triple.weaken (h : Triple P p Q E) (hQ : ∀ a s, Q a s → Q' a s) (hE : ∀ e s, E e s → E' e s) :
    Triple P p Q' E' :=
  h.conseq (fun _ h => h) hQ hE

theorem Triple.raising (h : Triple P p Q E) (hE : ∀ e s, E e s → E' e s) : Triple P p Q E' :=
  h.weaken (fun _ _ h => h) hE

theorem Triple.returning (h : Triple P p Q E) (hQ : ∀ a s, Q a s → Q' a s) : Triple P p Q' E :=
  h.weaken hQ fun _ _ h => h

theorem Triple.of_exists {ι : Type} {P : ι → σ → Prop} (h : ∀ i, Triple (P i) p Q E) :
    Triple (fun s => ∃ i, P i s) p Q E := by
  rintro s ⟨i, hi⟩
  exact h i s hi

theorem Triple.pure {a : α} (h : ∀ s, P s → Q a s) : Triple P (Pure.pure a : Program σ ε α) Q E :=
  fun s hs => h s hs

theorem Triple.fail {e : ε} (h : ∀ s, P s → E e s) : Triple P (fail e : Program σ ε α) Q E :=
  fun s hs => h s hs

theorem Triple.read {f : σ → α} (h : ∀ s, P s → Q (f s) s) :
    Triple P (read f : Program σ ε α) Q E :=
  fun s hs => h s hs

theorem Triple.modify {f : σ → σ} {R : Unit → σ → Prop} (h : ∀ s, P s → R () (f s)) :
    Triple P (modify f : Program σ ε Unit) R E :=
  fun s hs => h s hs

theorem Triple.require {c : Prop} [Decidable c] {e : ε} {R : Unit → σ → Prop}
    (ht : ∀ s, P s → c → R () s) (hf : ∀ s, P s → ¬ c → E e s) :
    Triple P (require c e : Program σ ε Unit) R E := by
  intro s hs
  unfold Program.require
  by_cases hc : c
  · rw [if_pos hc]
    exact ht s hs hc
  · rw [if_neg hc]
    exact hf s hs hc

theorem Triple.lift {r : Except ε α} (ho : ∀ s a, P s → r = .ok a → Q a s)
    (he : ∀ s e, P s → r = .error e → E e s) : Triple P (lift r : Program σ ε α) Q E := by
  intro s hs
  cases r with
  | ok a => exact ho s a hs rfl
  | error e => exact he s e hs rfl

theorem bind_apply (p : Program σ ε α) (f : α → Program σ ε β) (s : σ) :
    (p >>= f) s = match p s with
      | (.ok a, s) => f a s
      | (.error e, s) => (.error e, s) := rfl

instance : LawfulMonad (Program σ ε) := by
  refine .mk' _ (fun p => ?_) (fun _ _ => rfl) fun p f g => ?_
  · funext s
    show (p >>= pure) s = p s
    rw [bind_apply]
    rcases p s with ⟨_ | _, _⟩ <;> rfl
  · funext s
    rw [bind_apply, bind_apply, bind_apply]
    rcases p s with ⟨_ | _, _⟩ <;> rfl

theorem Triple.bind {f : α → Program σ ε β} {R : β → σ → Prop} (hp : Triple P p Q E)
    (hf : ∀ a, Triple (Q a) (f a) R E) : Triple P (p >>= f) R E := by
  intro s hs
  have h := hp s hs
  rw [bind_apply]
  rcases hps : p s with ⟨r, s'⟩
  rw [hps] at h
  cases r with
  | ok a => exact hf a s' h
  | error e => exact h

theorem Triple.read_bind {f : σ → α} {g : α → Program σ ε β} {R : β → σ → Prop}
    (hg : ∀ a, Triple (fun s => P s ∧ f s = a) (g a) R E) :
    Triple P (Program.read f >>= g) R E :=
  .bind (Q := fun a s => P s ∧ f s = a) (.read fun _ hs => ⟨hs, rfl⟩) hg

theorem Triple.handle {handler : ε → Program σ ε α} {F : ε → σ → Prop} (hp : Triple P p Q F)
    (hh : ∀ e, Triple (F e) (handler e) Q E) : Triple P (handle p handler) Q E := by
  intro s hs
  have h := hp s hs
  unfold Program.handle
  rcases hps : p s with ⟨r, s'⟩
  rw [hps] at h
  cases r with
  | ok a => exact h
  | error e => exact hh e s' h

/-- What `p` leaves on either exit is where `q` starts; `R` and `F` are what `q` makes of it. -/
theorem Triple.ensure {q : Program σ ε Unit} {R : α → σ → Prop} {F : ε → σ → Prop} (hp : Triple P p Q E)
    (hok : ∀ a, Triple (Q a) q (fun _ => R a) F) (herror : ∀ e, Triple (E e) q (fun _ => F e) F) :
    Triple P (ensure p q) R F := by
  intro s hs
  have h := hp s hs
  unfold Program.ensure
  rcases hps : p s with ⟨r, s'⟩
  rw [hps] at h
  cases r with
  | ok a =>
    have hq := hok a s' h
    dsimp only
    rcases hqs : q s' with ⟨r', s''⟩
    rw [hqs] at hq
    cases r' with
    | ok _ => exact hq
    | error e => exact hq
  | error e =>
    have hq := herror e s' h
    dsimp only
    rcases hqs : q s' with ⟨r', s''⟩
    rw [hqs] at hq
    cases r' with
    | ok _ => exact hq
    | error e' => exact hq

theorem Triple.ite {c : Prop} [Decidable c] {q : Program σ ε α} (ht : c → Triple P p Q E)
    (hf : ¬ c → Triple P q Q E) : Triple P (if c then p else q) Q E := by
  split_ifs with hc
  · exact ht hc
  · exact hf hc

theorem Triple.whenever {c : Prop} [Decidable c] {q : Program σ ε Unit} {R : Unit → σ → Prop}
    (ht : c → Triple P q R E) (hf : ∀ s, P s → ¬ c → R () s) : Triple P (whenever c q) R E :=
  .ite ht fun hc => .pure fun s hs => hf s hs hc

theorem Triple.of_fact {φ : Prop} (hφ : ∀ s, P s → φ) (h : φ → Triple P p Q E) : Triple P p Q E :=
  fun s hs => h (hφ s hs) s hs

/-- A loop over a list, with an invariant that may speak of the elements left. -/
theorem Triple.forEach {body : α → Program σ ε Unit} {I : List α → σ → Prop}
    (hbody : ∀ a rest, Triple (I (a :: rest)) (body a) (fun _ => I rest) E) (l : List α) :
    Triple (I l) (forEach body l) (fun _ => I []) E := by
  induction l with
  | nil => exact .pure fun s hs => hs
  | cons a rest ih => exact .bind (hbody a rest) fun _ => ih

theorem Keeps.forEach {I : σ → Prop} {body : α → Program σ ε Unit} (hbody : ∀ a, Keeps I (body a))
    (l : List α) : Keeps I (Program.forEach body l) :=
  Triple.forEach (I := fun _ => I) (fun a _ => hbody a) l

namespace Keeps

variable {I : σ → Prop}

theorem ret {a : α} : Keeps I (Pure.pure a : Program σ ε α) := Triple.pure fun _ h => h

theorem fails {e : ε} : Keeps I (Program.fail e : Program σ ε α) := Triple.fail fun _ h => h

theorem reads {f : σ → α} : Keeps I (Program.read f : Program σ ε α) := Triple.read fun _ h => h

theorem requires {c : Prop} [Decidable c] {e : ε} : Keeps I (Program.require c e) :=
  Triple.require (fun _ h _ => h) fun _ h _ => h

theorem lifts {r : Except ε α} : Keeps I (Program.lift r : Program σ ε α) :=
  Triple.lift (fun _ _ h _ => h) fun _ _ h _ => h

theorem seq {p : Program σ ε α} {f : α → Program σ ε β} (hp : Keeps I p) (hf : ∀ a, Keeps I (f a)) :
    Keeps I (p >>= f) :=
  Triple.bind hp hf

theorem branch {c : Prop} [Decidable c] {p q : Program σ ε α} (hp : Keeps I p) (hq : Keeps I q) :
    Keeps I (if c then p else q) :=
  Triple.ite (fun _ => hp) fun _ => hq

end Keeps

/-! ## Agreement -/

/-- The programs do the same from every state that satisfies `P`. -/
def Agree (P : σ → Prop) (p q : Program σ ε α) : Prop := ∀ s, P s → p s = q s

namespace Agree

variable {q : Program σ ε α}

theorem refl : Agree P p p := fun _ _ => rfl

theorem of_bind {f : α → Program σ ε β} (hpq : Agree P p q) : Agree P (p >>= f) (q >>= f) := by
  intro s hs
  rw [bind_apply, bind_apply, hpq s hs]

theorem bind {f g : α → Program σ ε β} (hp : Triple P p Q E) (hfg : ∀ a, Agree (Q a) (f a) (g a)) :
    Agree P (p >>= f) (p >>= g) := by
  intro s hs
  have h := hp s hs
  rw [bind_apply, bind_apply]
  rcases hps : p s with ⟨r, s'⟩
  rw [hps] at h
  cases r with
  | ok a => exact hfg a s' h
  | error e => rfl

theorem handle {f g : ε → Program σ ε α} (hp : Triple P p Q E) (hfg : ∀ e, Agree (E e) (f e) (g e)) :
    Agree P (handle p f) (handle p g) := by
  intro s hs
  have h := hp s hs
  unfold Program.handle
  rcases hps : p s with ⟨r, s'⟩
  rw [hps] at h
  cases r with
  | ok a => rfl
  | error e => exact hfg e s' h

theorem of_handle {f : ε → Program σ ε α} (hpq : Agree P p q) :
    Agree P (Program.handle p f) (Program.handle q f) := by
  intro s hs
  unfold Program.handle
  rw [hpq s hs]

theorem ite {c : Prop} [Decidable c] {p' q' : Program σ ε α} (ht : c → Agree P p q) (hf : ¬ c → Agree P p' q') :
    Agree P (if c then p else p') (if c then q else q') := by
  split_ifs with hc
  · exact ht hc
  · exact hf hc

end Agree

/-! ## Two runs -/

theorem bind_ok_iff {p : Program σ ε α} {f : α → Program σ ε β} {s t : σ} {b : β} :
    (p >>= f) s = (.ok b, t) ↔ ∃ a s₁, p s = (.ok a, s₁) ∧ f a s₁ = (.ok b, t) := by
  change (match p s with
    | (.ok a, s) => f a s
    | (.error e, s) => (.error e, s)) = _ ↔ _
  rcases p s with ⟨e | a, s₁⟩
  · exact ⟨nofun, nofun⟩
  · exact ⟨fun h => ⟨a, s₁, rfl, h⟩, fun ⟨_, _, heq, h⟩ => by cases heq; exact h⟩

theorem handle_ok_iff {p : Program σ ε α} {f : ε → Program σ ε α} (hf : ∀ e s a t, f e s ≠ (.ok a, t)) {s t : σ} {a : α} :
    handle p f s = (.ok a, t) ↔ p s = (.ok a, t) := by
  unfold handle
  rcases p s with ⟨e | b, s₁⟩
  · exact ⟨fun h => absurd h (hf e s₁ a t), nofun⟩
  · exact Iff.rfl

/-- Where `p` returns, `q` returns from a related state, with related results. -/
def Follows (I : σ → σ → Prop) (R : α → α → Prop) (p q : Program σ ε α) : Prop :=
  ∀ s s' a t, I s s' → p s = (.ok a, t) → ∃ a' t', q s' = (.ok a', t') ∧ R a a' ∧ I t t'

namespace Follows

variable {I : σ → σ → Prop} {R : α → α → Prop} {S : β → β → Prop} {p q : Program σ ε α}

theorem pure {a a' : α} (h : R a a') : Follows I R (Pure.pure a : Program σ ε α) (Pure.pure a') := by
  rintro s s' _ _ hI ⟨⟩
  exact ⟨a', s', rfl, h, hI⟩

theorem read {f : σ → α} (h : ∀ s s', I s s' → R (f s) (f s')) : Follows I R (Program.read f : Program σ ε α)
    (Program.read f) := by
  rintro s s' _ _ hI ⟨⟩
  exact ⟨f s', s', rfl, h s s' hI, hI⟩

theorem modify {f g : σ → σ} (h : ∀ s s', I s s' → I (f s) (g s')) :
    Follows I (fun _ _ => True) (Program.modify f : Program σ ε Unit) (Program.modify g) := by
  rintro s s' _ _ hI ⟨⟩
  exact ⟨(), g s', rfl, trivial, h s s' hI⟩

theorem require {c c' : Prop} [Decidable c] [Decidable c'] {e : ε} (h : c → c') :
    Follows I (fun _ _ => True) (Program.require c e : Program σ ε Unit) (Program.require c' e) := by
  intro s s' a t hI hrun
  unfold Program.require at hrun ⊢
  by_cases hc : c
  · rw [if_pos hc] at hrun
    rw [if_pos (h hc)]
    cases hrun
    exact ⟨(), s', rfl, trivial, hI⟩
  · rw [if_neg hc] at hrun
    cases hrun

theorem bind {f g : α → Program σ ε β} (hpq : Follows I R p q) (hfg : ∀ a a', R a a' → Follows I S (f a) (g a')) :
    Follows I S (p >>= f) (q >>= g) := by
  intro s s' b t hI hrun
  obtain ⟨a, s₁, hp, hf⟩ := bind_ok_iff.mp hrun
  obtain ⟨a', s₁', hq, hR, hI₁⟩ := hpq s s' a s₁ hI hp
  obtain ⟨b', t', hg, hS, hI'⟩ := hfg a a' hR s₁ s₁' b t hI₁ hf
  exact ⟨b', t', bind_ok_iff.mpr ⟨a', s₁', hq, hg⟩, hS, hI'⟩

theorem handle {f g : ε → Program σ ε α} (hpq : Follows I R p q) (hf : ∀ e s a t, f e s ≠ (.ok a, t))
    (hg : ∀ e s a t, g e s ≠ (.ok a, t)) : Follows I R (Program.handle p f) (Program.handle q g) := by
  intro s s' a t hI hrun
  obtain ⟨a', t', hq, hRI⟩ := hpq s s' a t hI ((handle_ok_iff hf).mp hrun)
  exact ⟨a', t', (handle_ok_iff hg).mpr hq, hRI⟩

end Follows

end Program

end Sentinel
