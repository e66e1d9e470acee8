import Sentinel.Uvc.Identity

/-!
# Proofs: a camera is never silently substituted

A bound device is one that the Owner selected and that never left since, where the binding is explicit, and otherwise
one with the serial of the approved device (`Justified`). The flag and the binding are set together, so a flag that
outlives its binding is cleared before a device is bound again.
-/

namespace Sentinel.Uvc

variable {c : Controller} {d e b : Evidence} {devices : List Evidence} {handoff : Option Evidence}
  {h : List CallEvent}

/-! ## Scans -/

theorem Evidence.SameLiveInstance.strongKey_eq (h : d.SameLiveInstance e) : d.strongKey = e.strongKey := by
  have hkey := congrArg Evidence.strongKey h
  exact hkey

theorem instances_congr (h : d.SameLiveInstance e) : instances devices d = instances devices e := by
  refine List.filter_congr fun x _ => decide_eq_decide.mpr ⟨fun hx => ?_, fun hx => ?_⟩
  · exact Eq.trans hx h
  · exact Eq.trans hx (Eq.symm h)

theorem currentLiveInstance_eq_some (h : currentLiveInstance devices d = some e) :
    instances devices d = [e] ∧ e.SameLiveInstance d := by
  unfold currentLiveInstance at h
  split at h
  · rename_i x hx
    cases h
    refine ⟨hx, ?_⟩
    have hmem : e ∈ instances devices d := by simp [hx]
    exact of_decide_eq_true (List.mem_filter.mp hmem).2
  · cases h

/-- The device of a decision is the only one of the scan with the strong key of the approved one. -/
theorem matchReconnect_device {ambiguous : Bool} (h : (matchReconnect d devices ambiguous).device = some e) :
    d.strongKey ≠ none ∧ ambiguous = false ∧ peers devices d = [e] ∧ e.strongKey = d.strongKey := by
  unfold matchReconnect at h
  split_ifs at h with hstrong hany
  · split at h
    · rename_i x hx
      cases h
      refine ⟨hstrong.1, by simpa using hstrong.2, hx, ?_⟩
      have hmem : e ∈ peers devices d := by simp [hx]
      exact of_decide_eq_true (List.mem_filter.mp hmem).2
    · cases h
    · cases h

/-! ## Bindings -/

/-- Why a device may be bound. -/
def Justified (handoff : Option Evidence) (h : List CallEvent) (c : Controller) (b : Evidence) : Prop :=
  if c.explicitBinding then ∃ candidate, Standing handoff h candidate ∧ b.SameLiveInstance candidate
  else b.strongKey = c.approved.strongKey ∧ b.strongKey ≠ none

/-- Every bound device is justified. -/
def Bindings (handoff : Option Evidence) (h : List CallEvent) (c : Controller) : Prop :=
  ∀ b, c.bound = some b → Justified handoff h c b

variable {x : CallEvent} {fails saved : Bool}

theorem Standing.cons (h : Standing handoff h d) (hx : ¬Drops x d) : Standing handoff (x :: ‹_›) d := by
  rcases h with ⟨since, A, earlier, rfl, hA, hsince⟩ | ⟨hhandoff, hall⟩
  · exact .inl ⟨x :: since, A, earlier, rfl, hA, List.forall_mem_cons.mpr ⟨hx, hsince⟩⟩
  · exact .inr ⟨hhandoff, List.forall_mem_cons.mpr ⟨hx, hall⟩⟩

theorem justified_of_standing (hexplicit : c.explicitBinding = true) (hb : Standing handoff h b) :
    Justified handoff h c b := by
  unfold Justified
  rw [if_pos hexplicit]
  exact ⟨b, hb, Eq.refl b.liveInstanceKey⟩

theorem bindings_of_none (hnone : c.bound = none) : Bindings handoff h c := fun b hb => by
  rw [hnone] at hb
  cases hb

theorem Bindings.kept {c' : Controller} (hb : Bindings handoff h c) (hbound : c'.bound = c.bound)
    (hexplicit : c'.explicitBinding = c.explicitBinding) (happroved : c'.approved = c.approved)
    (hx : ∀ candidate, ¬Drops x candidate) : Bindings handoff (x :: h) c' := by
  intro b hb'
  have hj := hb b (hbound ▸ hb')
  unfold Justified at hj ⊢
  rw [hexplicit, happroved]
  split_ifs at hj ⊢
  · obtain ⟨candidate, hstanding, hsame⟩ := hj
    exact ⟨candidate, hstanding.cons (hx candidate), hsame⟩
  · exact hj

theorem Controller.live_eq_some (hlive : c.live devices = some d) :
    ∃ b, c.bound = some b ∧ instances devices b = [d] ∧ d.SameLiveInstance b ∧
      c.keeps devices d c.explicitBinding = true := by
  unfold Controller.live at hlive
  split at hlive
  · cases hlive
  · rename_i b hb
    split at hlive
    · cases hlive
    · rename_i current hcurrent
      split_ifs at hlive with hkeeps
      cases hlive
      obtain ⟨hinstances, hsame⟩ := currentLiveInstance_eq_some hcurrent
      exact ⟨b, hb, hinstances, hsame, hkeeps⟩

theorem Controller.rematch_bound (c : Controller) (devices : List Evidence) :
    (c.rematch devices).2.bound = (matchReconnect c.approved devices c.serialAmbiguous).device ∧
    (c.rematch devices).2.explicitBinding = false ∧ (c.rematch devices).2.approved = c.approved ∧
    (c.rematch devices).1 = matchReconnect c.approved devices c.serialAmbiguous := by
  unfold Controller.rematch
  dsimp only
  split_ifs <;> exact ⟨rfl, rfl, rfl, rfl⟩

/-- What `reconcile` does. -/
inductive Reconciled (c : Controller) (devices : List Evidence) (saved fails : Bool) : Result × Controller → Prop
  | refused (hfinished : c.finished = true) : Reconciled c devices saved fails (.refused, c)
  | disabled (henabled : c.enabled = false) :
      Reconciled c devices saved fails (Controller.ends fails none, { c with bound := none }.transition .offline .disabled)
  | required (hrequired : c.requiresApproval = true) :
      Reconciled c devices saved fails
        (Controller.ends fails none, { c with bound := none }.transition .manual .ownerApprovalRequired)
  | held (hold : Evidence × Bool) (hrequired : c.requiresApproval = false) :
      Reconciled c devices saved fails (Controller.ends fails none,
        { c with profileHold := some hold, bound := none }.transition .degraded .captureProfileUnavailable)
  | live (current : Evidence) (henabled : c.enabled = true) (hrequired : c.requiresApproval = false)
      (hlive : c.live devices = some current) :
      Reconciled c devices saved fails (.returned (some current), { c with profileHold := none, bound := some current })
  /-- The decision is manual, and the store's write raised. -/
  | unsaved (hrematches : c.rematches devices = true) (hmanual : (c.rematch devices).1.state = .manual)
      (hstored : c.stored = true) (hsaved : saved = false) :
      Reconciled c devices saved fails (.raised, (c.rematch devices).2)
  | rematched (hrematches : c.rematches devices = true)
      (hsaved : (c.rematch devices).1.state = .manual → c.stored = true → saved = true) :
      Reconciled c devices saved fails (Controller.ends fails (c.rematch devices).1.device,
        (c.rematch devices).2.transition (c.rematch devices).1.state (c.rematch devices).1.reason)

theorem Controller.reconciled (c : Controller) (devices : List Evidence) (saved fails : Bool) :
    Reconciled c devices saved fails (c.reconcile devices saved fails) := by
  unfold Controller.reconcile
  split
  · exact .refused ‹_›
  split
  · exact .disabled (Bool.not_eq_true _ ▸ ‹¬c.enabled = true›)
  split
  · exact .required ‹_›
  rename_i hfinished henabled hrequired
  rw [Bool.not_eq_true] at hfinished hrequired
  rw [not_not] at henabled
  cases hheld : c.held devices with
  | some hold => exact .held hold hrequired
  | none =>
    cases hlive : c.live devices with
    | some current => exact .live current henabled hrequired hlive
    | none =>
      have hrematches : c.rematches devices = true := by
        simp [Controller.rematches, hfinished, henabled, hrequired, hheld, hlive]
      dsimp only
      split
      · rename_i h
        exact .unsaved hrematches h.1 h.2.1 (by simpa using h.2.2)
      · rename_i h
        exact .rematched hrematches fun hmanual hstored => by
          by_contra hsaved
          exact h ⟨hmanual, hstored, hsaved⟩

theorem bindings_rematch : Bindings handoff h (c.rematch devices).2 := by
  obtain ⟨hbound, hexplicit, happroved, -⟩ := c.rematch_bound devices
  intro b hb
  rw [hbound] at hb
  obtain ⟨hstrong, -, -, heq⟩ := matchReconnect_device hb
  unfold Justified
  rw [hexplicit, happroved]
  exact ⟨heq, by rw [heq]; exact hstrong⟩

theorem not_drops_of_op (h : ∀ candidate, ¬x.input.op.Drops candidate) (candidate : Evidence) :
    ¬Drops x candidate := fun hd => h candidate hd.2

theorem not_drops_of_refused (h : x.output = .refused) (candidate : Evidence) : ¬Drops x candidate :=
  fun hd => hd.1 h

theorem Reconciled.bindings {r : Result × Controller} (hr : Reconciled c devices saved fails r) (hb : Bindings handoff h c)
    (hop : x.input.op = .reconcile devices) (hx : x.output = r.1) : Bindings handoff (x :: h) r.2 := by
  cases hr with
  | refused => exact hb.kept rfl rfl rfl (not_drops_of_refused hx)
  | disabled | required | held => exact bindings_of_none rfl
  | live current henabled hrequired hlive =>
    -- the live instance is there once, so nothing is dropped
    obtain ⟨b, hbound, hinstances, hsame, -⟩ := Controller.live_eq_some hlive
    intro b' hb'
    obtain rfl : current = b' := Option.some.inj hb'
    have hj := hb b hbound
    unfold Justified at hj ⊢
    dsimp only
    split_ifs at hj ⊢
    · obtain ⟨candidate, hstanding, hsame'⟩ := hj
      refine ⟨candidate, hstanding.cons fun hd => ?_, Eq.trans hsame hsame'⟩
      have hone := hd.2
      rw [hop] at hone
      exact hone (by rw [← instances_congr hsame', hinstances]; rfl)
    · rw [hsame.strongKey_eq]
      exact hj
  | unsaved | rematched => exact bindings_rematch

/-- What a call that neither scans nor approves leaves. -/
structure Other (op : Op) (c : Controller) (r : Result × Controller) : Prop where
  approved : r.2.approved = c.approved
  serialAmbiguous : r.2.serialAmbiguous = c.serialAmbiguous
  requiresApproval : r.2.requiresApproval = c.requiresApproval
  stored : r.2.stored = c.stored
  /-- The binding is gone, or it is as it was and the call does not drop it. -/
  bound : r.2.bound = none ∨ (r.2.bound = c.bound ∧ r.2.explicitBinding = c.explicitBinding ∧
    (r.1 = .refused ∨ ∀ candidate, ¬op.Drops candidate))
  token : r.2.sessionToken = c.sessionToken ∨ r.2.sessionToken = none
  device : ∀ d, r.1 ≠ .returned (some d)

theorem Controller.ends_none (fails : Bool) (d : Evidence) : ends fails none ≠ .returned (some d) := by
  cases fails <;> simp [ends]

theorem Controller.call_other (c : Controller) {op : Op} (saved fails : Bool)
    (hreconcile : ∀ devices, op ≠ .reconcile devices) (happrove : ∀ candidate devices, op ≠ .approve candidate devices) :
    Other op c (c.call op saved fails) := by
  have hnone := ends_none fails
  have hrefused {op : Op} : Other op c (.refused, c) := ⟨rfl, rfl, rfl, rfl, .inr ⟨rfl, rfl, .inl rfl⟩, .inl rfl, nofun⟩
  cases op with
  | reconcile devices => exact absurd rfl (hreconcile devices)
  | approve candidate devices => exact absurd rfl (happrove candidate devices)
  | disconnected | captureFailed => exact ⟨rfl, rfl, rfl, rfl, .inl rfl, .inl rfl, hnone⟩
  | captureReady candidate =>
    unfold call
    dsimp only
    split
    · exact hrefused
    · exact ⟨rfl, rfl, rfl, rfl, .inr ⟨rfl, rfl, .inr nofun⟩, .inl rfl, hnone⟩
  | frameStalled candidate onlyOnline lost confirm =>
    unfold call
    dsimp only
    split
    · exact ⟨rfl, rfl, rfl, rfl, .inr ⟨rfl, rfl, .inr nofun⟩, .inl rfl, nofun⟩
    · split <;> exact ⟨rfl, rfl, rfl, rfl, .inr ⟨rfl, rfl, .inr nofun⟩, .inl rfl, hnone⟩
  | captureProfileUnavailable candidate =>
    unfold call
    dsimp only
    split
    · exact hrefused
    · split
      · exact hrefused
      · exact ⟨rfl, rfl, rfl, rfl, .inl rfl, .inl rfl, hnone⟩
  | approvalConflict | setEnabled enabled =>
    unfold call
    dsimp only
    split
    · exact hrefused
    · exact ⟨rfl, rfl, rfl, rfl, .inl rfl, .inl rfl, hnone⟩
  | captureClosing | captureClosed =>
    unfold call
    dsimp only
    split <;> exact ⟨rfl, rfl, rfl, rfl, .inl rfl, .inl rfl, hnone⟩
  | fenceStopping acquired =>
    unfold call
    dsimp only
    split <;> exact ⟨rfl, rfl, rfl, rfl, .inr ⟨rfl, rfl, .inr nofun⟩, .inl rfl, hnone⟩
  | shutdown =>
    unfold call
    dsimp only
    split
    · exact ⟨rfl, rfl, rfl, rfl, .inr ⟨rfl, rfl, .inr nofun⟩, .inl rfl, nofun⟩
    · split
      · exact ⟨rfl, rfl, rfl, rfl, .inr ⟨rfl, rfl, .inr nofun⟩, .inl rfl, nofun⟩
      · refine ⟨rfl, rfl, rfl, rfl, .inr ⟨rfl, rfl, .inr nofun⟩, ?_, nofun⟩
        dsimp only
        split
        · exact .inr rfl
        · exact .inl rfl
  | supersedeStoppedSession =>
    unfold call
    dsimp only
    split
    · exact hrefused
    · exact ⟨rfl, rfl, rfl, rfl, .inr ⟨rfl, rfl, .inr nofun⟩, .inr rfl, nofun⟩

/-- The controller after the Owner approved the candidate. -/
abbrev Controller.approving (c : Controller) (candidate : Evidence) (devices : List Evidence) : Controller :=
  { c with
    approved := candidate
    bound := some candidate
    explicitBinding := true
    profileHold := none
    serialAmbiguous := c.approvedAmbiguous candidate devices
    requiresApproval := false }.transition .degraded .ownerApprovedPendingCapture

/-- What `approve` does. -/
inductive Approving (c : Controller) (candidate : Evidence) (devices : List Evidence) (saved fails : Bool) :
    Result × Controller → Prop
  | refused (hrefuses : c.acceptsApproval candidate devices = false) :
      Approving c candidate devices saved fails (.refused, c)
  | unsaved (haccepts : c.acceptsApproval candidate devices = true) (hstored : c.stored = true) (hsaved : saved = false) :
      Approving c candidate devices saved fails (.raised, c)
  | approved (haccepts : c.acceptsApproval candidate devices = true) (hsaved : c.stored = true → saved = true) :
      Approving c candidate devices saved fails (Controller.ends fails none, c.approving candidate devices)

theorem Controller.call_approve (c : Controller) (candidate : Evidence) (devices : List Evidence) (saved fails : Bool) :
    Approving c candidate devices saved fails (c.call (.approve candidate devices) saved fails) := by
  unfold call
  dsimp only
  split
  · exact .refused (Bool.not_eq_true _ ▸ ‹¬c.acceptsApproval candidate devices = true›)
  · rename_i haccepts
    rw [not_not] at haccepts
    split
    · rename_i h
      exact .unsaved haccepts h.1 (by simpa using h.2)
    · rename_i h
      refine .approved haccepts fun hstored => ?_
      by_contra hsaved
      exact h ⟨hstored, hsaved⟩

theorem Controller.ends_ne_refused (fails : Bool) (device : Option Evidence) : ends fails device ≠ .refused := by
  cases fails <;> simp [ends]

theorem Approving.bindings {candidate : Evidence} {r : Result × Controller} (hr : Approving c candidate devices saved fails r)
    (hb : Bindings handoff h c) :
    Bindings handoff (⟨c, ⟨.approve candidate devices, saved, fails⟩, r.1, r.2⟩ :: h) r.2 := by
  cases hr with
  | refused | unsaved => exact hb.kept rfl rfl rfl (not_drops_of_op fun _ => nofun)
  | approved haccepts hsaved =>
    intro b hbound
    obtain rfl : candidate = b := Option.some.inj hbound
    refine justified_of_standing rfl (.inl ⟨[], _, h, rfl, ⟨devices, rfl, ?_, hsaved⟩, List.forall_mem_nil _⟩)
    exact Controller.ends_ne_refused fails none

/-- **One call keeps every binding justified.** -/
theorem step_bindings (i : Call) (hb : Bindings handoff h c) :
    Bindings handoff (Event.of step c i :: h) (step i c).2 := by
  obtain ⟨op, saved, fails⟩ := i
  by_cases hreconcile : ∃ devices, op = .reconcile devices
  · obtain ⟨devices, rfl⟩ := hreconcile
    exact (c.reconciled devices saved fails).bindings hb rfl rfl
  by_cases happrove : ∃ candidate devices, op = .approve candidate devices
  · obtain ⟨candidate, devices, rfl⟩ := happrove
    exact (c.call_approve candidate devices saved fails).bindings hb
  · push Not at hreconcile happrove
    have hother := c.call_other saved fails hreconcile happrove
    rcases hother.bound with hnone | ⟨hbound, hexplicit, hrefused | hop⟩
    · exact bindings_of_none hnone
    · exact hb.kept hbound hexplicit hother.approved (not_drops_of_refused hrefused)
    · exact hb.kept hbound hexplicit hother.approved (not_drops_of_op hop)

theorem bindings_init {approved : Evidence} {saved : Option Saved} {enabled : Bool}
    (hc : Controller.init approved saved enabled handoff = some c) : Bindings handoff [] c := by
  unfold Controller.init at hc
  dsimp only at hc
  split_ifs at hc
  cases hc
  intro b hb
  replace hb : handoff = some b := hb
  subst hb
  exact justified_of_standing rfl (.inr ⟨rfl, List.forall_mem_nil _⟩)

/-! ## Runs -/

theorem bindings_of_reaches {init : Controller} (hinit : Bindings handoff [] init)
    (hs : Reaches step init h c) : Bindings handoff h c := by
  induction hs with
  | start => exact hinit
  | next hs i ih => exact step_bindings i ih

/-- A device that a scan returns is matched by the serial of the approved one, or is the live instance of a candidate
that the Owner selected and that never left since. -/
theorem Reconciled.returned {r : Result × Controller} (hr : Reconciled c devices saved fails r) (hb : Bindings handoff h c)
    (hd : r.1 = .returned (some d)) :
    c.enabled = true ∧ c.requiresApproval = false ∧
      ((c.approved.strongKey ≠ none ∧ c.serialAmbiguous = false ∧ peers devices c.approved = [d]) ∨
        ∃ candidate, Standing handoff h candidate ∧ instances devices candidate = [d]) := by
  cases hr with
  | refused => cases hd
  | disabled | required | held => exact absurd hd (Controller.ends_none _ _)
  | unsaved => cases hd
  | live current henabled hrequired hlive =>
    cases hd
    refine ⟨henabled, hrequired, ?_⟩
    obtain ⟨b, hbound, hinstances, hsame, hkeeps⟩ := Controller.live_eq_some hlive
    have hj := hb b hbound
    unfold Justified at hj
    split_ifs at hj with hexplicit
    · obtain ⟨candidate, hstanding, hsame'⟩ := hj
      exact .inr ⟨candidate, hstanding, by rw [← instances_congr hsame', hinstances]⟩
    · left
      have hkey : d.strongKey = c.approved.strongKey := hsame.strongKey_eq.trans hj.1
      have hstrong : d.strongKey ≠ none := by rw [hsame.strongKey_eq]; exact hj.2
      simp only [Controller.keeps, hexplicit, Bool.false_or, Bool.or_eq_true, Option.isNone_iff_eq_none, hstrong,
        false_or, Bool.and_eq_true, Bool.not_eq_true', beq_iff_eq] at hkeeps
      refine ⟨hkey ▸ hstrong, hkeeps.1, ?_⟩
      have hpeers : peers devices c.approved = peers devices d := by unfold peers; rw [hkey]
      rw [hpeers]
      obtain ⟨x, hx⟩ := List.length_eq_one_iff.mp hkeeps.2
      have hmem : d ∈ peers devices d := by
        have hdevices : d ∈ devices := (List.mem_filter.mp (hinstances ▸ List.mem_singleton_self d)).1
        exact List.mem_filter.mpr ⟨hdevices, by simp⟩
      rw [hx] at hmem ⊢
      rw [List.mem_singleton.mp hmem]
  | rematched hrematches hsaved =>
    have hdevice : (c.rematch devices).1.device = some d := by
      cases fails with
      | false => simpa [Controller.ends] using hd
      | true => cases hd
    rw [(c.rematch_bound devices).2.2.2] at hdevice
    obtain ⟨hstrong, hambiguous, hpeers, -⟩ := matchReconnect_device hdevice
    simp only [Controller.rematches, Bool.and_eq_true, Bool.not_eq_true'] at hrematches
    exact ⟨hrematches.1.1.1.2, hrematches.1.1.2, .inl ⟨hstrong, hambiguous, hpeers⟩⟩

/-- **A local camera is never silently substituted.** Whenever `reconcile` returns a device, the source is enabled and
does not require approval, and the device is the only one of the scan with the strong key of the approved evidence, the
serial not being ambiguous; or it is the only entry of the scan for the live instance of a candidate that the Owner
selected in this process, and the binding was not dropped since that selection. -/
theorem no_silent_substitution {approved : Evidence} {saved : Option Saved} {enabled : Bool} {handoff : Option Evidence}
    {init c : Controller} {h : List CallEvent} (hinit : Controller.init approved saved enabled handoff = some init)
    (hs : Reaches step init h c) (later earlier : List CallEvent) (e : CallEvent) (devices : List Evidence) (d : Evidence)
    (hh : h = later ++ e :: earlier) (hop : e.input.op = .reconcile devices)
    (hd : e.output = .returned (some d)) :
    e.before.enabled = true ∧ e.before.requiresApproval = false ∧
      ((e.before.approved.strongKey ≠ none ∧ e.before.serialAmbiguous = false ∧
          peers devices e.before.approved = [d]) ∨
        ∃ candidate, Standing handoff earlier candidate ∧ instances devices candidate = [d]) := by
  subst hh
  obtain ⟨hbefore, he⟩ := hs.event
  have hbindings := bindings_of_reaches (bindings_init hinit) hbefore
  have hcall : (e.before.call (.reconcile devices) e.input.saved e.input.fails).1 = .returned (some d) := by
    rw [← hd, he, ← hop]
    rfl
  exact (e.before.reconciled devices _ _).returned hbindings hcall

/-- A camera without a serial, as a scan finds it first. -/
def weakCamera : Evidence := { devicePath := "/dev/video0", vendor := "1d6b", product := "0102" }

/-- The same, once it has an alias. -/
def aliasedCamera : Evidence := { weakCamera with byId := ["usb-camera"] }

/-- A controller of a source whose first camera is not approved yet. -/
def unapproved : Controller :=
  { approved := weakCamera, serialAmbiguous := false, requiresApproval := true, enabled := true, sessionToken := some 1 }

/-- The Owner selects the camera, it delivers a frame, and a scan finds it with an alias. -/
def aliasedScan : List Call :=
  [⟨.approve weakCamera [weakCamera], true, false⟩, ⟨.captureReady weakCamera, true, false⟩,
    ⟨.reconcile [aliasedCamera], true, false⟩]

theorem no_silent_substitution_aliasedScan :
    let run := perform step unapproved aliasedScan
    (run.1.head?.map fun e => e.output) = some (.returned (some aliasedCamera)) ∧
      ∃ candidate, Standing none (run.1.drop 1) candidate ∧ instances [aliasedCamera] candidate = [aliasedCamera] := by
  intro run
  refine ⟨by decide +kernel, ?_⟩
  have hinit : Controller.init weakCamera (some ⟨weakCamera, true, false, 1⟩) true none = some unapproved := rfl
  have h := no_silent_substitution hinit (.perform step unapproved aliasedScan) [] (run.1.drop 1)
    (run.1.get ⟨0, by decide +kernel⟩) [aliasedCamera] aliasedCamera rfl rfl (by decide +kernel)
  exact h.2.2.resolve_left fun hstrong => hstrong.1 (by decide +kernel)

end Sentinel.Uvc
