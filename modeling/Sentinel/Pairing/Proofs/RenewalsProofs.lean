import Sentinel.Pairing.Proofs.LedgerProofs
import Sentinel.Pairing.Renewals

/-!
# Proofs: one renewal for each key

A row is only ever staged for a key that no binding has, unless a row without a certificate is replaced. So what holds of
the rows of a bound key goes on to hold (`Fixed`): that they are the renewal that was returned for it, or that there are none.
-/

namespace Sentinel.Pairing

variable {l l' : Ledger} {i : Input} {k : Key} {s : Audited} {q : Request}

/-- Every staged row has its certificate. -/
def Ledger.Certified (l : Ledger) : Prop := ∀ r ∈ l.renewals.rows, r.certificate.isSome = true

variable {t t' : StagedRenewal} {r : Renewal} {P : Renewal → Prop}

theorem Renewal.Is.eq (h : r.Is t) (h' : r.Is t') : t = t' := by
  obtain ⟨hkey, hserial, hnotAfter, hcertificate⟩ := h
  obtain ⟨hkey', hserial', hnotAfter', hcertificate'⟩ := h'
  cases t
  cases t'
  simp_all

/-! ## What a transaction does to the staged rows -/

theorem Stages.cases_certified {q : RenewalRequest} (h : Stages q l t l') (hl : l.Certified) :
    (l' = l ∧ ∃ r ∈ l.renewals.rows, r.Is t) ∨
      (l.bindings.rows.countP fun b => b.node = q.node) < maxKeyBindingsPerNode ∧ l.bindings.Free q.key ∧
        l'.bindings = l.bindings.insert ⟨q.key, q.node, false⟩ ∧
        l'.renewals = l.renewals.put ⟨q.node, q.key, q.serial, q.notAfter, some q.certificate⟩ ∧
        t = ⟨q.key, q.serial, q.notAfter, q.certificate⟩ := by
  cases h with
  | kept hr his => exact .inl ⟨rfl, _, hr, his⟩
  | certified hr _ hnone =>
    have hcertified := hl _ hr
    rw [hnone] at hcertified
    cases hcertified
  | fresh hfree hheld => exact .inr ⟨hheld, hfree, rfl, rfl, rfl⟩

/-- The rows that a transaction leaves were there, or it is one of `stage_renewal`. -/
theorem Changed.renewals (h : Changed i l l') :
    (∀ r ∈ l'.renewals.rows, r ∈ l.renewals.rows) ∨ ∃ q ending, i = .stageRenewal q ending := by
  cases h with
  | same | redeemed => exact .inl fun r hr => hr
  | approved _ hbinds => exact .inl fun r hr => hbinds.renewals ▸ hr
  | activated _ _ _ _ hbinds => exact .inl fun r hr => hbinds.renewals ▸ (Table.mem_delete.mp hr).1
  | revoked _ _ _ h => exact .inl (Ledger.revoke_ok h).2.2.1
  | staged => exact .inr ⟨_, _, rfl⟩
  | promoted _ _ hbinds => exact .inl fun r hr => hbinds.renewals ▸ (Table.mem_delete.mp hr).1

theorem Body.renewals {promotions : Nat → Option Promotion} {a : Answer} (h : Body l promotions i a l') :
    (∀ r ∈ l'.renewals.rows, r ∈ l.renewals.rows) ∧ (∀ t, a ≠ .staged t) ∨ ∃ q t, a = .staged t ∧ Stages q l t l' := by
  have hrows := h.changed.renewals
  cases h with
  | stageRenewal h => exact .inr ⟨_, _, rfl, Ledger.stageRenewal_ok h⟩
  | _ => exact .inl ⟨hrows.resolve_right (by rintro ⟨_, _, h⟩; cases h), nofun⟩

/-! ## One step -/

/-- What a step does: it leaves the tables, and returns a renewal only if it is staged, or it commits a transaction. -/
inductive Turn (q : Request) (s : Audited) : Reply → Audited → Prop
  | kept {o : Reply} {s' : Audited} (hledger : s'.state.ledger = s.state.ledger) (haudit : s'.audit = s.audit)
      (hreply : ∀ t, o.staging = some t → ∃ r ∈ s.state.ledger.renewals.rows, r.Is t) : Turn q s o s'
  | committed {i : Input} {a : Answer} {o : Reply} {s' : Audited} (hq : q = .ledger i)
      (hbody : i.body s.state.ledger s.state.promotions = .ok (a, s'.state.ledger))
      (haudit : s'.audit = s.audit ++ (i.record s.state).toList)
      (hreply : ∀ t, o.staging = some t → a = .staged t) : Turn q s o s'

theorem Ledger.stagedRenewal_ok {node : Node} {currentKey : Key} {currentSerial : Serial}
    (h : l.stagedRenewal node currentKey currentSerial k = .ok (some t)) : ∃ r ∈ l.renewals.rows, r.Is t := by
  unfold Ledger.stagedRenewal at h
  dsimp only at h
  split at h
  · cases h
  split at h
  · cases h
  split at h
  · cases h
  · rename_i r hr
    split at h
    · cases h
    · rename_i kept hkept
      split at h
      · cases h
      split at h
      · cases h
      rename_i hkey _
      simp only [Except.ok.injEq, Option.some.injEq] at h
      subst h
      obtain ⟨hfind, -⟩ := Option.filter_eq_some_iff.mp hr
      exact ⟨r, (Table.mem_of_find? hfind).1, not_not.mp hkey, rfl, rfl, hkept⟩

theorem transact_cases (i : Input) (s : Audited) (promotions : Nat → Option Promotion) (ending : Ending) :
    let r := transact s.state.ledger ending (i.body s.state.ledger s.state.promotions)
    Turn (.ledger i) s (.ledger r.1)
      ⟨⟨r.2, promotions⟩, if r.1.committed then s.audit ++ (i.record s.state).toList else s.audit⟩ := by
  unfold transact
  cases hbody : i.body s.state.ledger s.state.promotions with
  | error fault => exact .kept rfl rfl nofun
  | ok r =>
    obtain ⟨a, l'⟩ := r
    cases ending with
    | committed =>
      refine .committed rfl hbody rfl fun t ht => ?_
      unfold Reply.staging at ht
      split at ht
      · rename_i heq
        cases heq
        cases ht
        rfl
      · cases ‹Reply.ledger _ = Reply.found _›
      · cases ht
    | rolledBack => exact .kept rfl rfl nofun
    | unknown => exact .committed rfl hbody rfl nofun

theorem turn (q : Request) (s : Audited) : Turn q s (renewalStep q s).1 (renewalStep q s).2 := by
  unfold renewalStep
  cases q with
  | ledger i =>
    cases i with
    | admits call node key serial fails =>
      unfold step
      cases fails with
      | true => exact .kept rfl rfl nofun
      | false =>
        simp only [Bool.false_eq_true, if_false]
        cases s.state.ledger.admits node key serial <;> exact .kept rfl rfl nofun
    | promote call ending | approve authorized enrollment node key code processEpoch now ending
    | redeem enrollment key code processEpoch now ending | activate claim serial notAfter ending
    | revoke authorized node ending | stageRenewal request ending => exact transact_cases _ s _ ending
  | stagedRenewal node currentKey currentSerial key fails =>
    dsimp only
    split_ifs
    · exact .kept rfl rfl nofun
    · split
      · exact .kept rfl rfl nofun
      · rename_i renewal hfound
        refine .kept rfl rfl fun t ht => ?_
        cases ht
        exact Ledger.stagedRenewal_ok hfound

variable {o : Reply} {s' : Audited}

theorem Turn.renewals (h : Turn q s o s') (hl : s.state.ledger.Certified) (hr : r ∈ s'.state.ledger.renewals.rows) :
    r ∈ s.state.ledger.renewals.rows ∨ r.certificate.isSome = true ∧ s.state.ledger.bindings.Free r.key := by
  cases h with
  | kept hledger => exact .inl (hledger ▸ hr)
  | committed hq hbody =>
    rcases (Input.body_ok hbody).renewals with ⟨hrows, -⟩ | ⟨q', t, -, hstages⟩
    · exact .inl (hrows r hr)
    · rcases hstages.cases_certified hl with ⟨hsame, -⟩ | ⟨-, hfree, -, hrenewals, -⟩
      · exact .inl (hsame ▸ hr)
      · rw [hrenewals] at hr
        rcases Table.mem_put.mp hr with rfl | ⟨hbefore, -⟩
        · exact .inr ⟨rfl, hfree⟩
        · exact .inl hbefore

theorem Turn.certified (h : Turn q s o s') (hl : s.state.ledger.Certified) : s'.state.ledger.Certified := by
  intro r hr
  rcases h.renewals hl hr with hbefore | ⟨hcertified, -⟩
  · exact hl r hbefore
  · exact hcertified

theorem Turn.changed (h : Turn q s o s') : ∃ i, Changed i s.state.ledger s'.state.ledger := by
  cases h with
  | kept hledger => exact ⟨.promote 0 .committed, hledger ▸ .same⟩
  | committed hq hbody => exact ⟨_, (Input.body_ok hbody).changed⟩

/-- The key is bound, and the rows that are staged for it meet the condition. -/
def Fixed (k : Key) (P : Renewal → Prop) (l : Ledger) : Prop :=
  ¬l.bindings.Free k ∧ ∀ r ∈ l.renewals.rows, r.key = k → P r

theorem Turn.fixed (hturn : Turn q s o s') (hl : s.state.ledger.Certified) (h : Fixed k P s.state.ledger) :
    Fixed k P s'.state.ledger := by
  obtain ⟨i, hchanged⟩ := hturn.changed
  refine ⟨hchanged.keeps.not_free h.1, fun r hr hkey => ?_⟩
  rcases hturn.renewals hl hr with hbefore | ⟨-, hfree⟩
  · exact h.2 r hbefore hkey
  · exact absurd (hkey ▸ hfree) h.1

theorem Turn.staging (hturn : Turn q s o s') (hl : s.state.ledger.Certified) (h : Fixed t.key P s.state.ledger)
    (ht : o.staging = some t) : ∃ r : Renewal, P r ∧ r.Is t := by
  cases hturn with
  | kept _ _ hreply =>
    obtain ⟨r, hr, his⟩ := hreply t ht
    exact ⟨r, h.2 r hr his.1, his⟩
  | committed hq hbody _ hreply =>
    rcases (Input.body_ok hbody).renewals with ⟨-, hanswer⟩ | ⟨q', t', hanswer, hstages⟩
    · exact absurd (hreply t ht) (hanswer t)
    · cases (hreply t ht).symm.trans hanswer
      rcases hstages.cases_certified hl with ⟨-, r, hr, his⟩ | ⟨-, hfree, -, -, rfl⟩
      · exact ⟨r, h.2 r hr his.1, his⟩
      · exact absurd hfree h.1

theorem Turn.staged (hturn : Turn q s o s') (hs : Sound s.state.ledger) (hl : s.state.ledger.Certified)
    (ht : o.staging = some t) : Fixed t.key (Renewal.Is · t) s'.state.ledger := by
  obtain ⟨i, hchanged⟩ := hturn.changed
  have hafter := hchanged.sound hs
  -- the row that was returned is staged now, and a bound key has one node
  obtain ⟨r, hr, his⟩ : ∃ r ∈ s'.state.ledger.renewals.rows, r.Is t := by
    cases hturn with
    | kept hledger _ hreply => exact hledger ▸ hreply t ht
    | committed hq hbody _ hreply =>
      rcases (Input.body_ok hbody).renewals with ⟨-, hanswer⟩ | ⟨q', t', hanswer, hstages⟩
      · exact absurd (hreply t ht) (hanswer t)
      · cases (hreply t ht).symm.trans hanswer
        rcases hstages.cases_certified hl with ⟨hsame, hr⟩ | ⟨-, -, -, hrenewals, rfl⟩
        · rwa [hsame]
        · rw [hrenewals]
          exact ⟨_, Table.mem_put.mpr (.inl rfl), rfl, rfl, rfl, rfl⟩
  have hbound := hafter.renewal r hr
  refine ⟨?_, fun r' hr' hkey => ?_⟩
  · obtain ⟨b, hb, hkey, -⟩ := hbound
    exact fun hfree => hfree b hb (hkey.trans his.1)
  · have hbound' := hafter.renewal r' hr'
    rw [hkey, ← his.1] at hbound'
    rwa [Table.eq_of_key hr' hr (hbound'.node_eq hbound)]

/-- The key was superseded, or its staging was promoted, replaced or discarded. -/
def Leaves (k : Key) (l l' : Ledger) : Prop :=
  (∃ c, Replaces k c l l') ∨ (∃ r ∈ l.renewals.rows, r.key = k) ∧ ∀ r ∈ l'.renewals.rows, r.key ≠ k

theorem Changed.leaves (hchanged : Changed i l l') (hs : Sound l) (h : Leaves k l l') : Fixed k (fun _ => False) l' := by
  rcases h with ⟨c, hreplaces⟩ | ⟨⟨r, hr, rfl⟩, hgone⟩
  · have hretired := hchanged.retires hs hreplaces
    exact ⟨hretired.bound, hretired.renewal⟩
  · refine ⟨hchanged.keeps.not_free fun hfree => ?_, hgone⟩
    obtain ⟨b, hb, hkey, -⟩ := hs.renewal r hr
    exact hfree b hb hkey

/-- A promotion's transaction promotes one row and appends one record, or it changes nothing. -/
theorem Turn.promote {call : Nat} {ending : Ending} (h : Turn (.ledger (.promote call ending)) s o s') :
    (s'.state.ledger = s.state.ledger ∧ s'.audit = s.audit) ∨
    ∃ p r, s.state.promotions call = some p ∧ Won p r s.state.ledger s'.state.ledger ∧
      s'.audit = s.audit ++ [⟨.system, .activateCredential, r.node, true⟩] := by
  cases h with
  | kept hledger haudit => exact .inl ⟨hledger, haudit⟩
  | committed hq hbody haudit =>
    cases hq
    generalize s'.state.ledger = l' at hbody ⊢
    simp only [Input.record] at haudit
    cases Input.body_ok hbody with
    | idle hp => exact .inl ⟨rfl, by simpa [hp] using haudit⟩
    | promote hp h =>
      rcases Ledger.promoteRenewal_ok h with ⟨hnone, hsame, -⟩ | ⟨r, hwon⟩
      · exact .inl ⟨hsame, by simpa [hp, hnone] using haudit⟩
      · exact .inr ⟨_, r, hp, hwon, by simpa [hp, hwon.promotable] using haudit⟩

theorem Turn.bindings {request : RenewalRequest} {ending : Ending} (h : Turn (.ledger (.stageRenewal request ending)) s o s')
    (hl : s.state.ledger.Certified) :
    s'.state.ledger.bindings.rows = s.state.ledger.bindings.rows ∨
      (s.state.ledger.bindings.rows.countP fun b => b.node = request.node) < maxKeyBindingsPerNode ∧
        s'.state.ledger.bindings.rows = s.state.ledger.bindings.rows ++ [⟨request.key, request.node, false⟩] := by
  cases h with
  | kept hledger => exact .inl (by rw [hledger])
  | committed hq hbody =>
    cases hq
    generalize s'.state.ledger = l' at hbody ⊢
    cases Input.body_ok hbody with
    | stageRenewal h =>
      rcases (Ledger.stageRenewal_ok h).cases_certified hl with ⟨rfl, -⟩ | ⟨hheld, hfree, hbindings, -⟩
      · exact .inl rfl
      · rw [hbindings]
        exact .inr ⟨hheld, Table.rows_insert hfree⟩

/-! ## Runs -/

section Runs

variable {init : Audited} {h since earlier : List RenewalEvent} {e : RenewalEvent}

theorem turn_of_event (he : e = Event.of renewalStep e.before e.input) : Turn e.input e.before e.output e.after := by
  rw [he]
  exact turn _ _

theorem certified_of_reaches (hs : Reaches renewalStep init h s) (hinit : init.state.ledger.Certified) :
    s.state.ledger.Certified :=
  hs.invariant (P := fun s => s.state.ledger.Certified) hinit fun q s => (turn q s).certified

theorem sound_of_renewals (hs : Reaches renewalStep init h s) (hinit : Sound init.state.ledger) : Sound s.state.ledger :=
  hs.invariant (P := fun s => Sound s.state.ledger) hinit fun q s => (turn q s).changed.elim fun _ => Changed.sound

theorem Fixed.reaches (hs : Reaches renewalStep init (since ++ e :: earlier) s) (hinit : init.state.ledger.Certified)
    (h : Fixed k P e.after.state.ledger) : Fixed k P s.state.ledger :=
  hs.since (P := fun _ s => Fixed k P s.state.ledger) h fun q hs => (turn q _).fixed (certified_of_reaches hs hinit)

variable {e' : RenewalEvent} {later : List RenewalEvent}

theorem Fixed.before (hs : Reaches renewalStep init (later ++ e' :: (since ++ e :: earlier)) s)
    (hinit : init.state.ledger.Certified) (h : Fixed k P e.after.state.ledger) : Fixed k P e'.before.state.ledger :=
  .reaches hs.event.1 hinit h

theorem Fixed.staging_at (hs : Reaches renewalStep init (later ++ e' :: (since ++ e :: earlier)) s)
    (hinit : init.state.ledger.Certified) (h : Fixed t.key P e.after.state.ledger) (ht : e'.output.staging = some t) :
    ∃ r : Renewal, P r ∧ r.Is t := by
  obtain ⟨hbefore, hevent⟩ := hs.event
  exact (turn_of_event hevent).staging (certified_of_reaches hbefore hinit) (.before hs hinit h) ht

theorem staging_later (hs : Reaches renewalStep init (later ++ e' :: (since ++ e :: earlier)) s)
    (hsound : Sound init.state.ledger) (hinit : init.state.ledger.Certified) (ht : e.output.staging = some t)
    (ht' : e'.output.staging = some t') (hkey : t'.key = t.key) : t' = t := by
  have hfixed : Fixed t'.key (Renewal.Is · t) e.after.state.ledger := by
    rw [← List.cons_append, ← List.append_assoc] at hs
    obtain ⟨hbefore, hevent⟩ := hs.event
    rw [hkey]
    exact (turn_of_event hevent).staged (sound_of_renewals hbefore hsound) (certified_of_reaches hbefore hinit) ht
  obtain ⟨r, his, his'⟩ := Fixed.staging_at hs hinit hfixed ht'
  exact his'.eq his

theorem leaves_since (hs : Reaches renewalStep init (since ++ e :: earlier) s) (hsound : Sound init.state.ledger)
    (hleaves : Leaves k e.before.state.ledger e.after.state.ledger) : Fixed k (fun _ => False) e.after.state.ledger := by
  obtain ⟨hbefore, hevent⟩ := hs.event
  obtain ⟨i, hchanged⟩ := (turn_of_event hevent).changed
  exact hchanged.leaves (sound_of_renewals hbefore hsound) hleaves

theorem Promotes.won (hevent : e = Event.of renewalStep e.before e.input) (h : Promotes e r) :
    ∃ call ending, e.input = .ledger (.promote call ending) ∧
      e.before.state.promotions call = some ⟨r.node, r.key, r.serial⟩ ∧
      Won ⟨r.node, r.key, r.serial⟩ r e.before.state.ledger e.after.state.ledger ∧
      e.after.audit = e.before.audit ++ [⟨.system, .activateCredential, r.node, true⟩] := by
  obtain ⟨⟨call, ending, hinput⟩, hmem, hgone⟩ := h
  have hturn := turn_of_event hevent
  rw [hinput] at hturn
  rcases hturn.promote with ⟨hledger, -⟩ | ⟨p, r', hp, hwon, haudit⟩
  · exact absurd (hledger ▸ hmem) hgone
  · have hnode : r.node = r'.node := by
      by_contra hne
      exact hgone ((hwon.renewals r).mpr ⟨hmem, hne⟩)
    cases Table.eq_of_key hmem hwon.mem hnode
    cases hwon.promotion
    exact ⟨call, ending, hinput, hp, hwon, haudit⟩

theorem Promotes.leaves (hsound : Sound e.before.state.ledger) (hevent : e = Event.of renewalStep e.before e.input)
    (h : Promotes e r) : Leaves r.key e.before.state.ledger e.after.state.ledger := by
  obtain ⟨-, -, -, -, hwon, -⟩ := h.won hevent
  refine .inr ⟨⟨r, h.2.1, rfl⟩, fun r' hr' hkey => ?_⟩
  obtain ⟨hr', hnode⟩ := (hwon.renewals r').mp hr'
  have hbound := hsound.renewal r' hr'
  rw [hkey] at hbound
  exact hnode (hbound.node_eq (hsound.renewal r h.2.1))

end Runs

/-- **Renewal is idempotent for each key.** In every run of the ledger's calls, from tables whose staged rows have their
certificate: all renewals that are returned for a key are the same one; a key that was superseded, or whose staging was
promoted, replaced or discarded, is neither staged nor returned again; a staged row is promoted by a call for its own key
and certificate, which become the node's credential, with one audit record, and at most once; a promotion that promotes no
row changes nothing; a node has at most one staged row; and staging binds a key only while the node holds fewer keys than the
limit. -/
theorem renewal_idempotent (init s : Audited) (h : List RenewalEvent) (hsound : Sound init.state.ledger)
    (hcertified : init.state.ledger.Certified) (hs : Reaches renewalStep init h s) :
    (∀ e ∈ h, ∀ e' ∈ h, ∀ t t', e.output.staging = some t → e'.output.staging = some t' → t'.key = t.key → t' = t) ∧
    (∀ later e earlier, h = later ++ e :: earlier → ∀ k, Leaves k e.before.state.ledger e.after.state.ledger →
      (∀ e' ∈ later, ∀ t, e'.output.staging = some t → t.key ≠ k) ∧ ∀ r ∈ s.state.ledger.renewals.rows, r.key ≠ k) ∧
    ((∀ e ∈ h, ∀ r, Promotes e r →
      (∃ call ending, e.input = .ledger (.promote call ending) ∧
        e.before.state.promotions call = some ⟨r.node, r.key, r.serial⟩) ∧
      ⟨r.node, r.key, r.serial, true, some r.notAfter⟩ ∈ e.after.state.ledger.credentials.rows ∧
      e.after.audit = e.before.audit ++ [⟨.system, .activateCredential, r.node, true⟩]) ∧
    (∀ e ∈ h, ∀ call ending, e.input = .ledger (.promote call ending) → (∀ r, ¬Promotes e r) →
      e.after.state.ledger = e.before.state.ledger ∧ e.after.audit = e.before.audit) ∧
    ∀ later e' since e earlier, h = later ++ e' :: (since ++ e :: earlier) → ∀ r r', Promotes e r → Promotes e' r' →
      r'.key ≠ r.key) ∧
    (∀ r ∈ s.state.ledger.renewals.rows, ∀ r' ∈ s.state.ledger.renewals.rows, r'.node = r.node → r' = r) ∧
    (∀ e ∈ h, ∀ request ending, e.input = .ledger (.stageRenewal request ending) →
      e.after.state.ledger.bindings.rows = e.before.state.ledger.bindings.rows ∨
        (e.before.state.ledger.bindings.rows.countP fun b => b.node = request.node) < maxKeyBindingsPerNode ∧
          e.after.state.ledger.bindings.rows = e.before.state.ledger.bindings.rows ++ [⟨request.key, request.node, false⟩]) := by
  refine ⟨fun e he e' he' t t' ht ht' hkey => ?_, ?_, ⟨?_, ?_, ?_⟩, ?_, ?_⟩
  · obtain ⟨later, earlier, rfl⟩ := List.append_of_mem he
    rcases List.mem_append.mp he' with he' | he'
    · obtain ⟨later', since, rfl⟩ := List.append_of_mem he'
      rw [List.append_assoc] at hs
      exact staging_later hs hsound hcertified ht ht' hkey
    · rcases List.mem_cons.mp he' with rfl | he'
      · exact Option.some.inj (ht'.symm.trans ht)
      · obtain ⟨since, earlier', rfl⟩ := List.append_of_mem he'
        exact (staging_later hs hsound hcertified ht' ht hkey.symm).symm
  · rintro later e earlier rfl k hleaves
    have hfixed := leaves_since hs hsound hleaves
    refine ⟨fun e' he' t ht hkey => ?_, (Fixed.reaches hs hcertified hfixed).2⟩
    obtain ⟨later', since, rfl⟩ := List.append_of_mem he'
    rw [List.append_assoc] at hs
    obtain ⟨r, hfalse, -⟩ := Fixed.staging_at hs hcertified (hkey ▸ hfixed) ht
    exact hfalse
  · intro e he r hr
    obtain ⟨earlier, -, hevent⟩ := hs.event_of_mem he
    obtain ⟨call, ending, hinput, hp, hwon, haudit⟩ := hr.won hevent
    exact ⟨⟨call, ending, hinput, hp⟩, hwon.credential, haudit⟩
  · intro e he call ending hinput hnone
    obtain ⟨earlier, -, hevent⟩ := hs.event_of_mem he
    have hturn := turn_of_event hevent
    rw [hinput] at hturn
    rcases hturn.promote with hsame | ⟨p, r, -, hwon, -⟩
    · exact hsame
    · refine absurd ⟨⟨call, ending, hinput⟩, hwon.mem, fun hmem => ?_⟩ (hnone r)
      exact ((hwon.renewals r).mp hmem).2 rfl
  · rintro later e' since e earlier rfl r r' hr hr' hkey
    have hs' := hs
    rw [← List.cons_append, ← List.append_assoc] at hs'
    obtain ⟨hbefore, hevent⟩ := hs'.event
    have hfixed := leaves_since hs' hsound (hr.leaves (sound_of_renewals hbefore hsound) hevent)
    exact (Fixed.before hs hcertified hfixed).2 r' hr'.2.1 hkey
  · exact fun r hr r' hr' hnode => Table.eq_of_key hr' hr hnode
  · intro e he request ending hinput
    obtain ⟨earlier, hbefore, hevent⟩ := hs.event_of_mem he
    have hturn := turn_of_event hevent
    rw [hinput] at hturn
    exact hturn.bindings (certified_of_reaches hbefore hcertified)

/-- A node stages a renewal, asks for it, stages its key again with another certificate, and is admitted with it. -/
def renewedOnce : List Request :=
  [.ledger (.approve true 1 10 101 7 1 0 .committed), .ledger (.redeem 1 101 7 1 10 .committed),
    .ledger (.activate ⟨1, 10, 101⟩ 201 none .committed),
    .ledger (.stageRenewal ⟨10, 101, 201, 102, 202, 5, ⟨0, some 202⟩⟩ .committed),
    .stagedRenewal 10 101 201 102 false,
    .ledger (.stageRenewal ⟨10, 101, 201, 102, 203, 6, ⟨1, some 203⟩⟩ .committed),
    .ledger (.admits 1 10 102 202 false), .ledger (.promote 1 .committed)]

theorem renewal_idempotent_renewedOnce :
    let run := perform renewalStep {} renewedOnce
    run.1.filterMap (fun e => e.output.staging) = List.replicate 3 ⟨102, 202, 5, ⟨0, some 202⟩⟩ ∧
      run.2.audit.count ⟨.system, .activateCredential, 10, true⟩ = 2 ∧
      ∀ e ∈ run.1, ∀ e' ∈ run.1, ∀ t t', e.output.staging = some t → e'.output.staging = some t' → t'.key = t.key → t' = t := by
  intro run
  refine ⟨by decide +kernel, by decide +kernel, ?_⟩
  exact (renewal_idempotent {} _ _ sound_empty nofun (.perform renewalStep {} renewedOnce)).1

end Sentinel.Pairing
