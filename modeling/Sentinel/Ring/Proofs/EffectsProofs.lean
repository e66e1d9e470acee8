import Sentinel.Ring.Proofs.LedgerProofs

/-!
# Permitted changes keep the ledger valid, and the rules of `Safe`

`Ledger.Valid` and `Timely` are stable under permitted changes, so `Safe` triples carry them along:
only the permission of each single change is left to prove about the code.
-/

namespace Sentinel.Ring

open Program

variable {s : Settings} {c : Ctx} {l : Ledger} {action : Action}

/-- A permitted change of a state begins a deletion or leaves a segment that is kept. A deletion begins
only where every edge that holds is cut, and for a reason. -/
theorem Permitted.moves {segment : UUID} {state : SegmentState} (hp : Permitted s c l action)
    (h : action.Moves segment state) :
    (state ≠ .writing ∧ state ≠ .deleting) ∨ state = .deleting ∧
      (∀ edge ∈ l.protection.rows, edge.segment = segment → l.edgeHolds edge = true → action.Cuts edge) ∧
      (∀ edge, ¬ action.Links edge) ∧
      l.EachSegment segment fun row => row.state ≠ .deleting → Reclaims c l row := by
  cases action with
  | setStates changes =>
    obtain ⟨allocated, hin⟩ := h
    rcases (hp _ hin).1 with hst | hst | hst
    all_goals
      obtain rfl : state = _ := hst
      exact .inl ⟨by decide, by decide⟩
  | markMissing id | markStored id allocated =>
    obtain ⟨-, rfl⟩ := h
    exact .inl ⟨by decide, by decide⟩
  | markDeleting id =>
    obtain ⟨rfl, rfl⟩ := h
    refine .inr ⟨rfl, fun edge hedge hseg hholds => ?_, fun _ hlink => hlink, hp.2⟩
    have hprot := Ledger.isProtected_iff.mpr ⟨edge, hedge, hseg, Ledger.edgeHolds_iff.mp hholds⟩
    exact absurd (hprot.symm.trans hp.1) (by decide)
  | unlink id segment deleting =>
    obtain ⟨rfl, hdel, rfl⟩ := h
    refine .inr ⟨rfl, fun edge hedge hseg hholds => ?_, fun _ hlink => hlink, (hp.2 hdel).2⟩
    by_contra hcut
    have hmem := Ledger.mem_removeEdge.mpr ⟨hedge, fun hid hseg' => hcut ⟨hid, hseg'⟩⟩
    have hprot := Ledger.isProtected_iff.mpr ⟨edge, hmem, hseg, Ledger.edgeHolds_iff.mp hholds⟩
    exact absurd (hprot.symm.trans (hp.2 hdel).1) (by decide)
  | _ => exact h.elim

/-! ## Validity -/

theorem configured_apply (hl : l.Valid) (hp : Permitted s c l action)
    (hnone : (l.apply action).configuration = none) :
    (l.apply action).segments.rows = [] ∧ (l.apply action).incidents.rows = [] := by
  by_cases hstore : ∃ configuration, action = .storeConfiguration configuration
  · obtain ⟨configuration, rfl⟩ := hstore
    exact absurd hnone (by simp [Ledger.apply])
  · have hconf : l.configuration = none := by
      rwa [Ledger.configuration_apply fun configuration heq => hstore ⟨configuration, heq⟩] at hnone
    obtain ⟨hsegments, hincidents⟩ := hl.configured hconf
    constructor
    · refine List.eq_nil_iff_forall_not_mem.mpr fun row hrow => ?_
      rcases Ledger.segment_of_apply hrow with ⟨earlier, he, -⟩ | ⟨incidents, rfl⟩
      · simp [hsegments] at he
      · obtain ⟨configuration, hin, -⟩ := hp.1.profile
        simp [hconf] at hin
    · refine List.eq_nil_iff_forall_not_mem.mpr fun incident hi => ?_
      rcases Ledger.incident_of_apply hi with ⟨earlier, he, -⟩ | ⟨segments, clearing, rfl⟩
      · simp [hincidents] at he
      · obtain ⟨configuration, hin, -⟩ := hp.links
        simp [hconf] at hin

theorem phases_apply (hl : l.Valid) (hp : Permitted s c l action) {incident : Incident}
    (hi : incident ∈ (l.apply action).incidents.rows) (hret : incident.state.retained = true) :
    (incident.completed.isSome = true ↔ incident.state ≠ .active) ∧
      (incident.expires.isSome = true ↔ incident.state ≠ .active) := by
  rcases Ledger.incident_of_apply hi with ⟨earlier, he, hcont, hkeep | hturn⟩ | ⟨segments, clearing, rfl⟩
  · obtain ⟨hstate, hcompleted, hexpires⟩ := hkeep
    rw [hstate, hcompleted, hexpires]
    exact hl.phases earlier he (hstate ▸ hret)
  · cases action with
    | insertSegment row incidents =>
      obtain ⟨-, hstate, hcompleted, hexpires⟩ := hturn
      simp [hstate, hcompleted, hexpires]
    | completeIncident id state completed expires =>
      obtain ⟨-, hstate, hcompleted, hexpires⟩ := hturn
      rcases hp.2.1 with rfl | rfl
      · simp [hstate, hcompleted, hexpires]
      · simp [hstate, hcompleted, hexpires]
    | markIncidentDeleting id | markIncidentDeleted id => simp [hturn.2.1, IncidentState.retained] at hret
    | _ => exact hturn.elim
  · obtain ⟨hstate, hcompleted, hexpires⟩ := hp.active
    simp [hstate, hcompleted, hexpires]

theorem expiry_apply (hl : l.Valid) (hp : Permitted s c l action) {incident : Incident}
    (hi : incident ∈ (l.apply action).incidents.rows) {expires : Int}
    (hexp : expires ∈ incident.expires) : expires = incident.stop + retention := by
  rcases Ledger.incident_of_apply hi with ⟨earlier, he, hcont, hkeep | hturn⟩ | ⟨segments, clearing, rfl⟩
  · rw [hcont.stop]
    exact hl.expiry earlier he expires (hkeep.2.2 ▸ hexp)
  · rw [hcont.stop]
    cases action with
    | insertSegment row incidents => simp [hturn.2.2.2] at hexp
    | completeIncident id state completed expires' =>
      obtain ⟨hid, -, -, hexpires⟩ := hturn
      have hrow := hp.2.2 earlier he (hcont.id.symm.trans hid.symm)
      simp only [hexpires, Option.mem_def, Option.some.injEq] at hexp
      exact hexp ▸ hrow.2.2.2
    | markIncidentDeleting id | markIncidentDeleted id => exact hl.expiry earlier he expires (hturn.2.2 ▸ hexp)
    | _ => exact hturn.elim
  · simp [hp.active.2.2] at hexp

theorem edges_apply (hl : l.Valid) (hp : Permitted s c l action) {edge : Edge}
    (hedge : edge ∈ (l.apply action).protection.rows) :
    (∃ row ∈ (l.apply action).segments.rows, row.id = edge.segment) ∧
      ∃ incident ∈ (l.apply action).incidents.rows, incident.id = edge.incident := by
  have hincident : ∀ {incident : Incident}, incident ∈ l.incidents.rows →
      ∃ later ∈ (l.apply action).incidents.rows, later.id = incident.id := by
    intro incident hi
    obtain ⟨later, hl', hs⟩ : ∃ later ∈ (l.apply action).incidents.rows,
        action.Sustains incident later := Ledger.incident_apply hi
    exact ⟨later, hl', hs.1.id⟩
  rcases Ledger.mem_protection_apply.mp hedge with ⟨hold, hcut⟩ | hlink
  · obtain ⟨⟨row, hrow, hid⟩, incident, hi, hii⟩ := hl.edges edge hold
    have hdrop : action ≠ .dropSegment row.id := by
      rintro rfl
      exact hcut hid.symm
    obtain ⟨later, hlater, hc⟩ := Ledger.segment_apply hrow hdrop
    obtain ⟨later', hlater', hid'⟩ := hincident hi
    exact ⟨⟨later, hlater, hc.1.id.trans hid⟩, later', hlater', hid'.trans hii⟩
  · cases action with
    | insertSegment row incidents =>
      obtain ⟨hseg, incident, hi, hii⟩ := hlink
      rw [hp.2] at hi
      obtain ⟨later, hlater, hid⟩ := hincident (Ledger.mem_incidentsFor.mp hi).1
      exact ⟨⟨row, Table.mem_insert.mpr (.inr ⟨rfl, hp.1.fresh⟩), hseg.symm⟩, later, hlater,
        hid.trans hii⟩
    | insertIncident incident segments clearing =>
      obtain ⟨hii, hseg⟩ := hlink
      obtain ⟨configuration, -, -, rfl, -⟩ := hp.links
      obtain ⟨row, hrow, hid⟩ := List.mem_map.mp hseg
      exact ⟨⟨row, (Ledger.mem_matching.mp hrow).1, hid⟩, incident,
        Table.mem_insert.mpr (.inr ⟨rfl, hp.fresh⟩), hii.symm⟩
    | _ => exact hlink.elim

theorem ordered_apply (hl : l.Valid) (hp : Permitted s c l action) {row : Segment}
    (hrow : row ∈ (l.apply action).segments.rows) : row.start < row.stop := by
  rcases Ledger.segment_of_apply hrow with ⟨earlier, he, hc, -⟩ | ⟨incidents, rfl⟩
  · rw [hc.start, hc.stop]
    exact hl.ordered earlier he
  · obtain ⟨configuration, -, profile, -, hcadence⟩ := hp.1.profile
    have hpos := profile.cadence.1
    have hsecond : (0 : Nat) < second := by decide
    omega

theorem disjoint_apply (hl : l.Valid) (hp : Permitted s c l action) {row other : Segment}
    (hrow : row ∈ (l.apply action).segments.rows) (hother : other ∈ (l.apply action).segments.rows)
    (hsource : row.source = other.source) (ht : row.clockTrusted = true)
    (ht' : other.clockTrusted = true) (hne : row.id ≠ other.id) :
    row.stop ≤ other.start ∨ other.stop ≤ row.start := by
  -- a new trusted row starts after every trusted row of its source
  have hnew : ∀ {new : Segment} {incidents : List Incident} {earlier carried : Segment},
      action = .insertSegment new incidents → earlier ∈ l.segments.rows → earlier.Continues carried →
      carried.source = new.source → new.clockTrusted = true → carried.clockTrusted = true →
      carried.stop ≤ new.start := by
    rintro new incidents earlier carried rfl he hc hs hn hcarried
    rw [hc.stop]
    exact hp.1.follows earlier he (hc.source.symm.trans hs) fun _ => hc.clockTrusted.symm.trans hcarried
  rcases Ledger.segment_of_apply hrow with ⟨earlier, he, hc, -⟩ | ⟨incidents, hins⟩
  · rcases Ledger.segment_of_apply hother with ⟨earlier', he', hc', -⟩ | ⟨incidents', hins'⟩
    · rw [hc.start, hc.stop, hc'.start, hc'.stop]
      rw [hc.id, hc'.id] at hne
      rw [hc.source, hc'.source] at hsource
      exact hl.disjoint earlier he earlier' he' hsource (hc.clockTrusted.symm.trans ht)
        (hc'.clockTrusted.symm.trans ht') hne
    · exact .inl (hnew hins' he hc hsource ht' ht)
  · rcases Ledger.segment_of_apply hother with ⟨earlier', he', hc', -⟩ | ⟨incidents', hins'⟩
    · exact .inr (hnew hins he' hc' hsource.symm ht ht')
    · rw [hins] at hins'
      injection hins' with heq
      exact absurd (congrArg Segment.id heq) hne

theorem past_apply (hl : l.Valid) (hp : Permitted s c l action) {row : Segment}
    (hrow : row ∈ (l.apply action).segments.rows) (ht : row.clockTrusted = true) :
    row.stop ≤ (l.apply action).latestClock.getD 0 := by
  have hclock : l.latestClock.getD 0 ≤ (l.apply action).latestClock.getD 0 := by
    by_cases hrec : ∃ now, action = .recordClock now
    · obtain ⟨now, rfl⟩ := hrec
      exact hp.2.2
    · rw [Ledger.latestClock_apply fun now heq => hrec ⟨now, heq⟩]
  rcases Ledger.segment_of_apply hrow with ⟨earlier, he, hc, -⟩ | ⟨incidents, rfl⟩
  · rw [hc.stop]
    exact (hl.past earlier he (hc.clockTrusted.symm.trans ht)).trans hclock
  · have htrusted : c.trusted = true := hp.1.trust.symm.trans ht
    have hrecorded := hp.1.recorded htrusted
    rw [hrecorded] at hclock
    exact hp.1.ended.trans hclock

theorem valid_apply (hl : l.Valid) (hp : Permitted s c l action) : (l.apply action).Valid where
  configured := configured_apply hl hp
  phases := fun _ hi hret => phases_apply hl hp hi hret
  expiry := fun _ hi _ hexp => expiry_apply hl hp hi hexp
  edges := fun _ hedge => edges_apply hl hp hedge
  ordered := fun _ hrow => ordered_apply hl hp hrow
  disjoint := fun _ hrow _ hother hsource ht ht' hne =>
    disjoint_apply hl hp hrow hother hsource ht ht' hne
  past := fun _ hrow ht => past_apply hl hp hrow ht

theorem valid_empty : ({} : Ledger).Valid where
  configured := fun _ => ⟨rfl, rfl⟩
  phases := fun _ hi => absurd hi (List.not_mem_nil)
  expiry := fun _ hi => absurd hi (List.not_mem_nil)
  edges := fun _ hi => absurd hi (List.not_mem_nil)
  ordered := fun _ hi => absurd hi (List.not_mem_nil)
  disjoint := fun _ hi => absurd hi (List.not_mem_nil)
  past := fun _ hi => absurd hi (List.not_mem_nil)

theorem timely_apply (ht : Timely c l) (hp : Permitted s c l action) : Timely c (l.apply action) := by
  by_cases hrec : ∃ now, action = .recordClock now
  · obtain ⟨now, rfl⟩ := hrec
    obtain ⟨htrusted, rfl, -⟩ := hp
    unfold Timely clockRead at ht ⊢
    rw [htrusted, Bool.and_eq_true] at ht
    simp [Ledger.apply, ht.1, htrusted]
  · unfold Timely clockRead at ht ⊢
    rwa [Ledger.latestClock_apply fun now heq => hrec ⟨now, heq⟩]

/-! ## Stable predicates -/

theorem stable_configuration (hc : c.proposed = none) (k : Option Configuration) :
    Stable s c fun l => l.configuration = k := by
  intro l action _ hk hp
  rw [Ledger.configuration_apply ?_, hk]
  rintro configuration rfl
  have := hp.1
  simp [hc] at this

theorem stable_recorded : Stable s c fun l => l.latestClock = some c.now := by
  intro l action _ hrec hp
  by_cases hclock : ∃ now, action = .recordClock now
  · obtain ⟨now, rfl⟩ := hclock
    rw [← hp.2.1]
    rfl
  · rw [Ledger.latestClock_apply fun now heq => hclock ⟨now, heq⟩, hrec]

/-! ## Rules -/

variable {α β : Type} {P P' : Ledger → Prop} {p : RingM α} {Q Q' : α → Ledger → Prop}
  {R : β → Ledger → Prop} {E E' : Failure → Ledger → Prop}

theorem Safe.start (h : ∀ l', l'.Valid → Timely c l' → P l' → Safe s c (fun l => l = l') p Q E) :
    Safe s c P p Q E :=
  fun J l₀ hJ w hw =>
    h w.ledger hw.2.valid hw.2.timely hw.1 J l₀ hJ w ⟨rfl, hw.2⟩

theorem Safe.conseq (h : Safe s c P p Q E) (hP : ∀ l, l.Valid → P' l → P l)
    (hQ : ∀ a l, l.Valid → Q a l → Q' a l) (hE : ∀ e l, E e l → E' e l) : Safe s c P' p Q' E' :=
  fun J l₀ hJ => (h J l₀ hJ).conseq (fun w hw => ⟨hP w.ledger hw.2.valid hw.1, hw.2⟩)
    (fun a w hw => ⟨hQ a w.ledger hw.2.valid hw.1, hw.2⟩) fun e w hw => ⟨hE e w.ledger hw.1, hw.2⟩

theorem Safe.strengthen (h : Safe s c P p Q E) (hP : ∀ l, l.Valid → P' l → P l) :
    Safe s c P' p Q E :=
  h.conseq hP (fun _ _ _ h => h) fun _ _ h => h

theorem Safe.weaken (h : Safe s c P p Q E) (hQ : ∀ a l, l.Valid → Q a l → Q' a l) :
    Safe s c P p Q' E :=
  h.conseq (fun _ _ h => h) hQ fun _ _ h => h

theorem Safe.frame {J : Ledger → Prop} (h : Safe s c P p Q E) (hJ : Stable s c J) :
    Safe s c (fun l => P l ∧ J l) p (fun a l => Q a l ∧ J l) fun e l => E e l ∧ J l := by
  intro K l₀ hK
  have hJK : Stable s c fun l => J l ∧ K l := fun l action hl hjk hp =>
    ⟨hJ l action hl hjk.1 hp, hK l action hl hjk.2 hp⟩
  refine (h _ l₀ hJK).conseq (fun w hw => ?_) (fun a w hw => ?_) fun e w hw => ?_
  · exact ⟨hw.1.1, hw.2.valid, hw.2.timely, ⟨hw.1.2, hw.2.frame⟩, hw.2.agrees, hw.2.trace⟩
  · exact ⟨⟨hw.1, hw.2.frame.1⟩, hw.2.valid, hw.2.timely, hw.2.frame.2, hw.2.agrees, hw.2.trace⟩
  · exact ⟨⟨hw.1, hw.2.frame.1⟩, hw.2.valid, hw.2.timely, hw.2.frame.2, hw.2.agrees, hw.2.trace⟩

theorem Safe.pure {a : α} (h : ∀ l, l.Valid → P l → Q a l) :
    Safe s c P (Pure.pure a : RingM α) Q E :=
  fun _ _ _ => .pure fun w hw => ⟨h w.ledger hw.2.valid hw.1, hw.2⟩

theorem Safe.fail {e : Failure} (h : ∀ l, P l → E e l) : Safe s c P (Program.fail e : RingM α) Q E :=
  fun _ _ _ => .fail fun w hw => ⟨h w.ledger hw.1, hw.2⟩

theorem Safe.bind {f : α → RingM β} (hp : Safe s c P p Q E) (hf : ∀ a, Safe s c (Q a) (f a) R E) :
    Safe s c P (p >>= f) R E :=
  fun J l₀ hJ => .bind (hp J l₀ hJ) fun a => hf a J l₀ hJ

theorem Safe.getLedger {g : Ledger → RingM β}
    (hg : ∀ l', l'.Valid → Timely c l' → P l' → Safe s c (fun l => l = l') (g l') R E) :
    Safe s c P (Ring.getLedger >>= g) R E :=
  .start fun l' hl ht hP => fun J l₀ hJ w hw => by
    obtain ⟨rfl, hsound⟩ := hw
    exact hg w.ledger hl ht hP J l₀ hJ w ⟨rfl, hsound⟩

theorem Safe.getMemory {g : Memory → RingM β}
    (hg : ∀ m : Memory, Safe s c (fun l => P l ∧ m.configuration = l.configuration) (g m) R E) :
    Safe s c P (Ring.getMemory >>= g) R E :=
  fun J l₀ hJ w hw => hg w.memory J l₀ hJ w ⟨⟨hw.1, hw.2.agrees⟩, hw.2⟩

theorem Safe.getMedia {g : Media → RingM β} (hg : ∀ m, Safe s c P (g m) R E) :
    Safe s c P (Ring.getMedia >>= g) R E :=
  fun J l₀ hJ w hw => hg w.media J l₀ hJ w hw

variable {cond : Prop} {r : Except Failure α} {q : RingM α} {R : Unit → Ledger → Prop} {handler : Failure → RingM α}

theorem Safe.require [Decidable cond] {e : Failure} (hE : ∀ l, P l → ¬ cond → E e l) :
    Safe s c P (Program.require cond e) (fun _ l => P l ∧ cond) E :=
  fun _ _ _ => .require (fun _ hw hc => ⟨⟨hw.1, hc⟩, hw.2⟩) fun w hw hc => ⟨hE w.ledger hw.1 hc, hw.2⟩

theorem Safe.lift (hE : ∀ e l, P l → r = .error e → E e l) : Safe s c P (Program.lift r) (fun a l => P l ∧ r = .ok a) E :=
  fun _ _ _ => .lift (fun _ _ hw ha => ⟨⟨hw.1, ha⟩, hw.2⟩)
    fun w e hw he => ⟨hE e w.ledger hw.1 he, hw.2⟩

theorem Safe.ite [Decidable cond] (ht : cond → Safe s c P p Q E) (hf : ¬ cond → Safe s c P q Q E) :
    Safe s c P (if cond then p else q) Q E :=
  fun J l₀ hJ => .ite (fun hc => ht hc J l₀ hJ) fun hc => hf hc J l₀ hJ

theorem Safe.whenever [Decidable cond] {p : RingM Unit} (ht : cond → Safe s c P p R E)
    (hf : ∀ l, l.Valid → P l → ¬ cond → R () l) : Safe s c P (Program.whenever cond p) R E :=
  .ite ht fun hc => .pure fun l hl hP => hf l hl hP hc

theorem Safe.handle {F : Failure → Ledger → Prop} (hp : Safe s c P p Q F) (hh : ∀ e, Safe s c (F e) (handler e) Q E) :
    Safe s c P (Program.handle p handler) Q E :=
  fun J l₀ hJ => .handle (hp J l₀ hJ) fun e => hh e J l₀ hJ

theorem Safe.forEach {ι : Type} {body : ι → RingM Unit} {I : List ι → Ledger → Prop}
    (hbody : ∀ a rest, Safe s c (I (a :: rest)) (body a) (fun _ => I rest) E) (rows : List ι) :
    Safe s c (I rows) (Program.forEach body rows) (fun _ => I []) E :=
  fun J l₀ hJ => Triple.forEach
    (I := fun rest w => I rest w.ledger ∧ Sound s c J l₀ w) (fun a rest => hbody a rest J l₀ hJ) rows

theorem Safe.modifyMemory {f : World → World} (hl : ∀ w, (f w).ledger = w.ledger)
    (hlog : ∀ w, (f w).log = w.log)
    (hm : ∀ w, (f w).memory.configuration = w.memory.configuration) :
    Safe s c P (Program.modify f : RingM Unit) (fun _ => P) E := by
  intro J l₀ hJ w hw
  refine ⟨?_, ?_, ?_, ?_, ?_, ?_⟩
  · rw [hl]
    exact hw.1
  · rw [hl]
    exact hw.2.valid
  · rw [hl]
    exact hw.2.timely
  · rw [hl]
    exact hw.2.frame
  · rw [hl, hm]
    exact hw.2.agrees
  · rw [hl, hlog]
    exact hw.2.trace

theorem Safe.setStatus {state : RingState} {reason : StatusReason} :
    Safe s c P (Ring.setStatus state reason) (fun _ => P) E :=
  .modifyMemory (fun _ => rfl) (fun _ => rfl) fun _ => rfl

theorem Safe.freshId : Safe s c P Ring.freshId (fun _ => P) E :=
  fun _ _ _ _ hw => ⟨hw.1, { hw.2 with }⟩

theorem Safe.turn {failure : Fault → Failure} (hE : ∀ fault l, P l → E (failure fault) l) :
    Safe s c P (Ring.turn failure) (fun _ => P) E := by
  intro J l₀ hJ w hw
  obtain ⟨hP, hsound⟩ := hw
  unfold Ring.turn
  cases hturns : w.turns with
  | nil => exact ⟨hP, hsound⟩
  | cons t turns =>
    dsimp only
    cases t.fault with
    | none => exact ⟨hP, { hsound with }⟩
    | some fault => exact ⟨hE _ _ hP, { hsound with }⟩

theorem Safe.storeTurn (hE : ∀ e l, e.External → P l → E e l) :
    Safe s c P Ring.storeTurn (fun _ => P) E := by
  refine .turn fun fault l hP => hE _ l ?_ hP
  cases fault <;> trivial

theorem Safe.ledgerTurn (hE : ∀ e l, e.External → P l → E e l) :
    Safe s c P Ring.ledgerTurn (fun _ => P) E := by
  refine .turn fun fault l hP => hE _ l ?_ hP
  cases fault <;> trivial

theorem Safe.act (hperm : ∀ l, l.Valid → P l → Permitted s c l action)
    (hconf : ∀ configuration, action ≠ .storeConfiguration configuration) (hR : ∀ l, l.Valid → P l → R () (l.apply action)) :
    Safe s c P (Ring.act action) R E := by
  intro J l₀ hJ w hw
  obtain ⟨hP, hsound⟩ := hw
  have hp := hperm w.ledger hsound.valid hP
  exact ⟨hR w.ledger hsound.valid hP, valid_apply hsound.valid hp, timely_apply hsound.timely hp,
    hJ w.ledger action hsound.valid hsound.frame hp,
    hsound.agrees.trans (Ledger.configuration_apply hconf).symm, .cons w.media hsound.trace hp⟩

theorem Safe.transact (hE : ∀ e l, e.External → P l → E e l) (hperm : ∀ l, l.Valid → P l → Permitted s c l action)
    (hconf : ∀ configuration, action ≠ .storeConfiguration configuration) (hR : ∀ l, l.Valid → P l → R () (l.apply action)) :
    Safe s c P (Ring.transact action) R E :=
  .bind (.ledgerTurn hE) fun _ => .act hperm hconf hR

/-! ## Programs that only read -/

/-- The program leaves the ledger as it is. -/
def Reads {α : Type} (s : Settings) (c : Ctx) (p : RingM α) : Prop :=
  ∀ P : Ledger → Prop, Safe s c P p (fun _ => P) fun _ => P

theorem Reads.safe (h : Reads s c p) (hE : ∀ e l, P l → E e l) : Safe s c P p (fun _ => P) E :=
  (h P).conseq (fun _ _ h => h) (fun _ _ _ h => h) hE

theorem Reads.pure {a : α} : Reads s c (Pure.pure a : RingM α) := fun _ => .pure fun _ _ h => h

theorem Reads.fail {e : Failure} : Reads s c (Program.fail e : RingM α) := fun _ => .fail fun _ h => h

theorem Reads.bind {f : α → RingM β} (hp : Reads s c p) (hf : ∀ a, Reads s c (f a)) :
    Reads s c (p >>= f) :=
  fun P => .bind (hp P) fun a => hf a P

theorem Reads.getLedger : Reads s c Ring.getLedger := fun _ _ _ _ _ hw => hw

theorem Reads.getMemory : Reads s c Ring.getMemory := fun _ _ _ _ _ hw => hw

theorem Reads.ledgerTurn : Reads s c Ring.ledgerTurn := fun _ => .ledgerTurn fun _ _ _ h => h

theorem Reads.require [Decidable cond] {e : Failure} : Reads s c (Program.require cond e) := by
  intro P
  have h : Safe s c P (Program.require cond e) (fun _ l => P l ∧ cond) fun _ => P :=
    .require fun _ h _ => h
  exact h.weaken fun _ _ _ h => h.1

theorem Reads.lift : Reads s c (Program.lift r) := by
  intro P
  have h : Safe s c P (Program.lift r) (fun a l => P l ∧ r = .ok a) fun _ => P :=
    .lift fun _ _ h _ => h
  exact h.weaken fun _ _ _ h => h.1

theorem Reads.ite [Decidable cond] (hp : Reads s c p) (hq : Reads s c q) : Reads s c (if cond then p else q) :=
  fun P => .ite (fun _ => hp P) fun _ => hq P

theorem Reads.handle (hp : Reads s c p) (hh : ∀ e, Reads s c (handler e)) : Reads s c (Program.handle p handler) :=
  fun P => .handle (hp P) fun e => hh e P

/-- The program leaves the ledger as it is, and only the store or the ledger make it fail. -/
def Calls {α : Type} (s : Settings) (c : Ctx) (p : RingM α) : Prop :=
  ∀ P : Ledger → Prop, Safe s c P p (fun _ => P) fun e l => P l ∧ e.External

theorem Calls.reads (h : Calls s c p) : Reads s c p :=
  fun P => (h P).conseq (fun _ _ h => h) (fun _ _ _ h => h) fun _ _ h => h.1

theorem Calls.safe (h : Calls s c p) (hE : ∀ e l, e.External → P l → E e l) :
    Safe s c P p (fun _ => P) E :=
  (h P).conseq (fun _ _ h => h) (fun _ _ _ h => h) fun e l h => hE e l h.2 h.1

theorem Calls.pure {a : α} : Calls s c (Pure.pure a : RingM α) := fun _ => .pure fun _ _ h => h

theorem Calls.bind {f : α → RingM β} (hp : Calls s c p) (hf : ∀ a, Calls s c (f a)) :
    Calls s c (p >>= f) :=
  fun P => .bind (hp P) fun a => hf a P

theorem Calls.getMedia : Calls s c Ring.getMedia := fun _ _ _ _ _ hw => hw

theorem Calls.storeTurn : Calls s c Ring.storeTurn := fun _ => .storeTurn fun _ _ he h => ⟨h, he⟩

theorem Calls.require [Decidable cond] {e : Failure} (he : e.External) : Calls s c (Program.require cond e) := by
  intro P
  have h : Safe s c P (Program.require cond e) (fun _ l => P l ∧ cond) fun e l => P l ∧ e.External :=
    .require fun _ h _ => ⟨h, he⟩
  exact h.weaken fun _ _ _ h => h.1

theorem Calls.requireStorage [Decidable cond] {code : StorageCode} : Calls s c (Program.require cond (.storage code)) :=
  .require trivial

theorem Calls.ite [Decidable cond] (hp : Calls s c p) (hq : Calls s c q) : Calls s c (if cond then p else q) :=
  fun P => .ite (fun _ => hp P) fun _ => hq P

end Sentinel.Ring
