import Sentinel.Monitoring.StorageTick

/-!
# Proofs: refused samples reach the Owner

A refusal is owed to the Owner as long as the flag that it raised is to be taken, or an alert is about to be submitted;
when the flag is taken in an episode that was alerted, the alert of the episode stands for it. The status of the policy in
the final sample of the stop is the one sample whose flag nothing takes.
-/

namespace Sentinel.Monitoring.StorageTick

variable {h later earlier : List (Event State Input Output)} {s s' : State} {e : Event State Input Output}
  {i : Input} {o : Output}

/-! ## What a step does -/

/-- What a step can do. -/
inductive StepSpec (s : State) : Input → Output → State → Prop
  | same (i : Input) : StepSpec s i .none s
  | mark (hp : s.point = .idle) (hs : s.stopping = false) :
      StepSpec s .mark .none { s with runMarked := true, marker := true }
  | admitted : StepSpec s (.admission false) .none s
  | refused (ha : s.stopping = false ∨ s.point.alerts = true) :
      StepSpec s (.admission true) .refused { s with refused := true }
  | checked (i : Input) (stopping : Bool) (hp : s.point = .idle) (hs : s.stopping = false) :
      StepSpec s i .none { s with stopping, point := .checked true }
  | unchecked (i : Input) (stopping : Bool) (hi : ∀ refuses, i ≠ .status refuses) (hp : s.point = .idle)
      (hs : s.stopping = false) :
      StepSpec s i .refused { s with refused := true, stopping, point := .checked false }
  | alert (healthy : Bool) (hp : s.point = .checked healthy) (hok : s.filesystemOk = true) :
      StepSpec s .take .none { s with refused := false, point := .alerting }
  /-- The flag was not raised, or it belongs to the episode. -/
  | discard (healthy : Bool) (hp : s.point = .checked healthy) (hd : s.refused = true → s.filesystemOk = false)
      (hh : healthy = false → s.filesystemOk = false) :
      StepSpec s .take .none { s with refused := false, point := .setting healthy false }
  | submitted (hp : s.point = .alerting) : StepSpec s .submit .submitted { s with point := .setting false true }
  | ended (alerted : Bool) (hp : s.point = .setting true alerted) :
      StepSpec s .settle .ended { s with filesystemOk := true, point := .status alerted }
  | broken (alerted : Bool) (hp : s.point = .setting false alerted) :
      StepSpec s .settle .none { s with filesystemOk := false, point := .status alerted }
  | statusRefused (alerted : Bool) (hp : s.point = .status alerted) :
      StepSpec s (.status true) .refused { s with refused := true }
  | returned (alerted : Bool) (hp : s.point = .status alerted) (hs : s.stopping = false) :
      StepSpec s .finish .none { s with point := .idle }
  | final (alerted : Bool) (hp : s.point = .status alerted) (hs : s.stopping = true) :
      StepSpec s .finish .none { s with point := .clearing alerted }
  | left (i : Input) (refused : Bool) (alerted : Bool) (hi : ∀ refuses, i ≠ .status refuses)
      (hp : s.point = .clearing alerted) (hm : s.runMarked = true) :
      StepSpec s i .refused { s with refused, runMarked := true, marker := true, point := .stopped }
  | cleared (i : Input) (alerted : Bool) (hp : s.point = .clearing alerted) (hm : s.runMarked = true) :
      StepSpec s i .none { s with runMarked := false, marker := false, point := .stopped }
  | unmarked (i : Input) (alerted : Bool) (hp : s.point = .clearing alerted) :
      StepSpec s i .none { s with point := .stopped }

theorem step_spec (i : Input) (s : State) : StepSpec s i (step i s).1 (step i s).2 := by
  obtain ⟨refused, ok, runMarked, marker, stopping, point⟩ := s
  cases i with
  | mark =>
    cases point with
    | idle =>
      cases stopping with
      | true => exact .same _
      | false => exact .mark rfl rfl
    | _ => exact .same _
  | admission refuses =>
    simp only [step]
    by_cases ha : (stopping && !point.alerts) = true
    · rw [if_pos ha]
      exact .same _
    · rw [if_neg ha]
      cases refuses with
      | false => exact .admitted
      | true =>
        refine .refused ?_
        cases stopping with
        | false => exact .inl rfl
        | true => exact .inr (by simpa using ha)
  | tick refuses | stop refuses =>
    cases point with
    | idle =>
      cases stopping with
      | true => exact .same _
      | false =>
        cases refuses with
        | true => exact .unchecked _ _ nofun rfl rfl
        | false => exact .checked _ _ rfl rfl
    | _ => exact .same _
  | take =>
    cases point with
    | checked healthy =>
      simp only [step]
      cases ok with
      | false =>
        simp only [Bool.and_false, Bool.false_eq_true, if_false]
        exact .discard healthy rfl (fun _ => rfl) fun _ => rfl
      | true =>
        cases refused with
        | true => exact .alert healthy rfl rfl
        | false =>
          cases healthy with
          | true => exact .discard true rfl nofun nofun
          | false => exact .alert false rfl rfl
    | _ => exact .same _
  | submit =>
    cases point with
    | alerting => exact .submitted rfl
    | _ => exact .same _
  | settle =>
    cases point with
    | setting healthy alerted =>
      cases healthy with
      | true => exact .ended alerted rfl
      | false => exact .broken alerted rfl
    | _ => exact .same _
  | status refuses =>
    cases point with
    | status alerted =>
      cases refuses with
      | true => exact .statusRefused alerted rfl
      | false => exact .same _
    | _ => exact .same _
  | finish =>
    cases point with
    | status alerted =>
      cases stopping with
      | true => exact .final alerted rfl rfl
      | false => exact .returned alerted rfl rfl
    | _ => exact .same _
  | clear refuses =>
    cases point with
    | clearing alerted =>
      cases runMarked with
      | false => exact .unmarked _ alerted rfl
      | true =>
        cases refuses with
        | true => exact .left _ true alerted nofun rfl rfl
        | false => exact .cleared _ alerted rfl rfl
    | _ => exact .same _

/-! ## Episodes -/

theorem Open.cons (h' : Open h) (he : e.output ≠ .ended) : Open (e :: h) := by
  obtain ⟨mid, e', rest, rfl, hsub, hmid⟩ := h'
  exact ⟨e :: mid, e', rest, rfl, hsub, List.forall_mem_cons.mpr ⟨he, hmid⟩⟩

/-- What the variables say of the episode. -/
structure Episode (h : List (Event State Input Output)) (s : State) : Prop where
  /-- A filesystem that is not in order was alerted. -/
  broken : s.filesystemOk = false → Open h
  /-- So was what a tick that has alerted is about. -/
  alerted : s.point.alerts = true → s.point ≠ .alerting → Open h
  /-- A tick that sets the filesystem to be out of order has alerted, unless it was before. -/
  setting : s.point = .setting false false → s.filesystemOk = false
  healthy : ∀ alerted, s.point = .setting true alerted → alerted = false
  status : s.point = .status true → s.filesystemOk = false

theorem StepSpec.episode (hspec : StepSpec s i o s') (h' : Episode h s) : Episode (⟨s, i, o, s'⟩ :: h) s' := by
  obtain ⟨hb, ha, hset, hh, hst⟩ := h'
  cases hspec with
  | same | mark | admitted | refused | statusRefused =>
    exact ⟨fun hf => (hb hf).cons nofun, fun h₁ h₂ => (ha h₁ h₂).cons nofun, hset, hh, hst⟩
  | checked | unchecked | returned | left | cleared | unmarked =>
    exact ⟨fun hf => (hb hf).cons nofun, fun h => absurd h Bool.false_ne_true, nofun, nofun, nofun⟩
  | alert healthy hp hok => exact ⟨fun hf => (hb hf).cons nofun, fun _ hne => absurd rfl hne, nofun, nofun, nofun⟩
  | discard healthy hp hd hbad =>
    refine ⟨fun hf => (hb hf).cons nofun, fun h => absurd h Bool.false_ne_true, fun he => ?_, fun alerted he => ?_, nofun⟩
    · exact hbad (Point.setting.inj he).1
    · exact (Point.setting.inj he).2.symm
  | submitted hp =>
    refine ⟨fun hf => (hb hf).cons nofun, fun _ _ => ⟨[], _, h, rfl, rfl, List.forall_mem_nil _⟩, nofun, nofun, nofun⟩
  | ended alerted hp =>
    cases hh alerted hp
    exact ⟨nofun, fun h => absurd h Bool.false_ne_true, nofun, nofun, nofun⟩
  | broken alerted hp =>
    have hopen : Open h := by
      cases alerted with
      | true => exact ha (by rw [hp]; rfl) fun he => nomatch hp.symm.trans he
      | false => exact hb (hset hp)
    exact ⟨fun _ => hopen.cons nofun, fun _ _ => hopen.cons nofun, nofun, nofun, fun _ => rfl⟩
  | final alerted hp hs =>
    refine ⟨fun hf => (hb hf).cons nofun, fun he _ => ?_, nofun, nofun, nofun⟩
    exact (ha (by rw [hp]; exact he) fun he => nomatch hp.symm.trans he).cons nofun

theorem episode (hs : Reaches StorageTick.step {} h s) : Episode h s := by
  induction hs with
  | start => exact ⟨nofun, nofun, nofun, nofun, nofun⟩
  | next hs i ih => exact (step_spec i _).episode ih

/-! ## What is owed -/

/-- The flag is to be taken, or an alert is about to be submitted. -/
def Owed (s : State) : Prop :=
  s.refused = true ∧ (s.stopping = false ∨ ∃ healthy, s.point = .checked healthy) ∨ s.point = .alerting

/-- The refusal is reported or owed. -/
def Accounted (later earlier : List (Event State Input Output)) (s : State) : Prop :=
  (∃ e ∈ later, e.output = .submitted) ∨ Open earlier ∨ s.point = .stopped ∧ s.marker = true ∨ Owed s

theorem Open.split (ho : Open (later ++ e :: earlier)) (he : e.output ≠ .submitted) :
    (∃ x ∈ later, x.output = .submitted) ∨ Open earlier := by
  obtain ⟨mid, e', rest, heq, hsub, hmid⟩ := ho
  obtain ⟨between, rfl, hrest⟩ | ⟨between, rfl, hrest⟩ := List.append_eq_append_iff.mp heq
  · cases between with
    | nil =>
      obtain ⟨rfl, rfl⟩ := List.cons.inj hrest
      exact absurd hsub he
    | cons x between =>
      obtain ⟨rfl, rfl⟩ := List.cons.inj hrest
      exact .inr ⟨between, e', rest, rfl, hsub, fun x hx => hmid x (List.mem_append_right _ (List.mem_cons_of_mem _ hx))⟩
  · cases between with
    | nil =>
      obtain ⟨rfl, rfl⟩ := List.cons.inj hrest
      exact absurd hsub he
    | cons x between =>
      obtain ⟨rfl, _⟩ := List.cons.inj hrest
      exact .inl ⟨e', List.mem_append_right _ List.mem_cons_self, hsub⟩

/-- The stop has begun once the marker is to be deleted. -/
def Stopping (s : State) : Prop := (∃ alerted, s.point = .clearing alerted) ∨ s.point = .stopped → s.stopping = true

theorem StepSpec.stopping (hspec : StepSpec s i o s') (h' : Stopping s) : Stopping s' := by
  unfold Stopping at h' ⊢
  cases hspec with
  | same | mark | admitted | refused | statusRefused => exact h'
  | final alerted hp hs => exact fun _ => hs
  | left _ refused alerted hi hp hm | cleared _ alerted hp hm | unmarked _ alerted hp =>
    exact fun _ => h' (.inl ⟨alerted, hp⟩)
  | _ => exact fun h => h.elim (fun ⟨_, h⟩ => nomatch h) nofun

theorem stopping_init : Stopping {} := fun h => h.elim (fun ⟨_, h⟩ => nomatch h) nofun

theorem stopping (hs : Reaches StorageTick.step {} h s) : Stopping s := hs.invariant stopping_init fun i _ => (step_spec i _).stopping

theorem StepSpec.refusal (hspec : StepSpec s i o s') (hep : Episode earlier s) (ho : o = .refused)
    (hc : finalStatusRefused ⟨s, i, o, s'⟩ = false) : Accounted [] earlier s' := by
  subst ho
  unfold finalStatusRefused at hc
  cases hspec with
  | refused ha =>
    obtain hs | ha := ha
    · exact .inr (.inr (.inr (.inl ⟨rfl, .inl hs⟩)))
    · by_cases hp : s.point = .alerting
      · exact .inr (.inr (.inr (.inr hp)))
      · exact .inr (.inl (hep.alerted ha hp))
  | unchecked _ stopping hi hp hs => exact .inr (.inr (.inr (.inl ⟨rfl, .inr ⟨_, rfl⟩⟩)))
  | statusRefused alerted hp =>
    by_cases hs : s.stopping = true
    · have hok : s.filesystemOk = false := by simpa [hs] using hc
      exact .inr (.inl (hep.broken hok))
    · exact .inr (.inr (.inr (.inl ⟨rfl, .inl (Bool.eq_false_iff.mpr hs)⟩)))
  | left _ refused alerted hi hp hm => exact .inr (.inr (.inl ⟨rfl, rfl⟩))

/-- The flag that a refusal raised is taken by a tick that alerts, or in an episode that was alerted. -/
theorem StepSpec.owed (hspec : StepSpec s i o s') (ho : Owed s) (hep : Episode (later ++ e :: earlier) s) (hst : Stopping s)
    (he : e.output ≠ .submitted) : Accounted (⟨s, i, o, s'⟩ :: later) earlier s' := by
  have hkept : ∀ {later s'}, Owed s' → Accounted later earlier s' := fun h => .inr (.inr (.inr h))
  -- Outside of a check and an alert the flag is raised and the stop has not begun.
  have hflag {point : Point} (hp : s.point = point) (hc : ∀ healthy, point ≠ .checked healthy) (ha : point ≠ .alerting) :
      s.refused = true ∧ s.stopping = false := by
    subst hp
    obtain ⟨hr, hs⟩ := ho.resolve_right ha
    exact ⟨hr, hs.resolve_right fun ⟨healthy, hp⟩ => hc healthy hp⟩
  cases hspec with
  | same | mark | admitted => exact hkept ho
  | refused | statusRefused => exact hkept (ho.imp_left fun h => ⟨rfl, h.2⟩)
  | checked _ stopping hp hs => exact hkept (.inl ⟨(hflag hp nofun nofun).1, .inr ⟨_, rfl⟩⟩)
  | unchecked _ stopping hi hp hs => exact hkept (.inl ⟨rfl, .inr ⟨_, rfl⟩⟩)
  | alert healthy hp hok => exact hkept (.inr rfl)
  | discard healthy hp hd hh =>
    obtain ⟨hr, _⟩ := ho.resolve_right fun h => nomatch hp.symm.trans h
    obtain ⟨x, hx, hsub⟩ | hopen := (hep.broken (hd hr)).split he
    · exact .inl ⟨x, List.mem_cons_of_mem _ hx, hsub⟩
    · exact .inr (.inl hopen)
  | submitted hp => exact .inl ⟨_, List.mem_cons_self, rfl⟩
  | ended alerted hp | broken alerted hp | returned alerted hp =>
    obtain ⟨hr, hs⟩ := hflag hp nofun nofun
    exact hkept (.inl ⟨hr, .inl hs⟩)
  | final alerted hp hs => cases hs.symm.trans (hflag hp nofun nofun).2
  | left _ refused alerted hi hp hm => exact .inr (.inr (.inl ⟨rfl, rfl⟩))
  | cleared _ alerted hp hm | unmarked _ alerted hp =>
    cases (hst (.inl ⟨alerted, hp⟩)).symm.trans (hflag hp nofun nofun).2

theorem StepSpec.accounted (hspec : StepSpec s i o s') (ha : Accounted later earlier s) (hep : Episode (later ++ e :: earlier) s)
    (hst : Stopping s) (he : e.output ≠ .submitted) : Accounted (⟨s, i, o, s'⟩ :: later) earlier s' := by
  obtain ⟨x, hx, hsub⟩ | hopen | ⟨hstopped, hmarker⟩ | howed := ha
  · exact .inl ⟨x, List.mem_cons_of_mem _ hx, hsub⟩
  · exact .inr (.inl hopen)
  · refine .inr (.inr (.inl ?_))
    cases hspec with
    | same | admitted | refused => exact ⟨hstopped, hmarker⟩
    | mark hp | checked _ _ hp | unchecked _ _ _ hp | alert _ hp | discard _ hp | submitted hp | ended _ hp
    | broken _ hp | statusRefused _ hp | returned _ hp | final _ hp | left _ _ _ _ hp | cleared _ _ hp
    | unmarked _ _ hp => exact nomatch hstopped.symm.trans hp
  · exact hspec.owed howed hep hst he

theorem accounted (hs : Reaches StorageTick.step {} (later ++ e :: earlier) s) (he : e.output = .refused)
    (hc : finalStatusRefused e = false) : Accounted later earlier s := by
  induction later generalizing s with
  | nil =>
    cases hs with
    | next hs i => exact (step_spec i _).refusal (episode hs) he hc
  | cons x later ih =>
    cases hs with
    | next hs i => exact (step_spec i _).accounted (ih hs) (episode hs) (stopping hs) (he ▸ nofun)

/-! ## Main result -/

/-- When the process has stopped, every refused sample has reached the Owner or left the marker, if no status of the
policy was refused in the final sample of the stop after it had found the filesystem healthy. -/
theorem refusal_reported (hs : Reaches StorageTick.step {} h s) (hstopped : s.point = .stopped)
    (hc : ∀ e ∈ h, finalStatusRefused e = false) :
    ∀ later e earlier, h = later ++ e :: earlier → e.output = .refused → Reported later earlier s := by
  rintro later e earlier rfl he
  obtain hsub | hopen | ⟨_, hmarker⟩ | howed := accounted hs he (hc e (by simp))
  · exact .inl hsub
  · exact .inr (.inl hopen)
  · exact .inr (.inr hmarker)
  · obtain ⟨_, hs' | ⟨healthy, hp⟩⟩ | hp := howed
    · exact nomatch ((stopping hs) (.inr hstopped)).symm.trans hs'
    · exact nomatch hstopped.symm.trans hp
    · exact nomatch hstopped.symm.trans hp

/-- An admission is refused between two ticks, and the stop samples a restored filesystem. -/
def restored : List Input :=
  [.mark, .tick false, .take, .settle, .status false, .finish, .admission true,
    .stop false, .take, .submit, .settle, .status false, .finish, .clear false]

theorem refusal_reported_restored :
    (perform StorageTick.step {} restored).2.marker = false ∧
      ∀ later e earlier, (perform StorageTick.step {} restored).1 = later ++ e :: earlier → e.output = .refused →
        Reported later earlier (perform StorageTick.step {} restored).2 :=
  ⟨by decide, refusal_reported (.perform _ _ restored) (by decide) (by decide)⟩

/-- The status of the policy is refused in the final sample of the stop, and the marker is deleted: no tick takes the
flag. -/
def unnoticed : List Input :=
  [.mark, .tick false, .take, .settle, .status false, .finish,
    .stop false, .take, .settle, .status true, .finish, .clear false]

theorem refusal_unnoticed :
    (perform StorageTick.step {} unnoticed).2.point = .stopped ∧
      ¬∀ later e earlier, (perform StorageTick.step {} unnoticed).1 = later ++ e :: earlier → e.output = .refused →
        Reported later earlier (perform StorageTick.step {} unnoticed).2 := by
  have hrefused : ∃ e ∈ (perform StorageTick.step {} unnoticed).1, e.output = .refused := by decide
  have hsilent : ∀ e ∈ (perform StorageTick.step {} unnoticed).1, e.output ≠ .submitted := by decide
  have hmarker : (perform StorageTick.step {} unnoticed).2.marker ≠ true := by decide
  refine ⟨by decide, fun hall => ?_⟩
  obtain ⟨e, he, hr⟩ := hrefused
  obtain ⟨later, earlier, heq⟩ := List.append_of_mem he
  obtain ⟨x, hx, hsub⟩ | ⟨mid, x, rest, rfl, hsub, _⟩ | hm := hall later e earlier heq hr
  · exact hsilent x (heq ▸ List.mem_append_left _ hx) hsub
  · exact hsilent x (heq ▸ by simp) hsub
  · exact hmarker hm

end Sentinel.Monitoring.StorageTick
