import Sentinel.Pairing.Ledger

/-!
# Proofs: key ownership and revocation

A write transaction does one of six things to the ledger (`Changed`). Every key that any table names is bound to
the node that the row names, an active credential has a key that is not revoked, and a pair of key and certificate
that was replaced can come back only by an activation: its key is bound and neither staged nor free to be staged.
-/

namespace Sentinel.Pairing

variable {l l' m : Ledger} {s : State} {i : Input} {o : Output} {n : Node} {k : Key} {c : Serial}

/-! ## What a transaction does -/

/-- The key is bound to the node. -/
def Ledger.Bound (l : Ledger) (node : Node) (key : Key) : Prop :=
  ∃ b ∈ l.bindings.rows, b.key = key ∧ b.node = node

/-- What `_bind_key` does: the key is the node's, not revoked, and nothing else changes. -/
structure Binds (node : Node) (key : Key) (l l' : Ledger) : Prop where
  enrollments : l'.enrollments = l.enrollments
  credentials : l'.credentials = l.credentials
  renewals : l'.renewals = l.renewals
  bindings : ∀ b, b ∈ l'.bindings.rows ↔ b ∈ l.bindings.rows ∨ b = ⟨key, node, false⟩

/-- A key that is not refused is bound to the node and not revoked, or to none. -/
theorem Ledger.refuseForeignKey_ok {bound : Bool} (h : l.refuseForeignKey n k = .ok bound) :
    (bound = true ∧ ⟨k, n, false⟩ ∈ l.bindings.rows) ∨ (bound = false ∧ l.bindings.Free k) := by
  unfold Ledger.refuseForeignKey at h
  cases hrow : l.bindings.find? k with
  | none =>
    rw [hrow] at h
    simp only [Option.any_none, Bool.false_eq_true, or_false, Option.isSome_none] at h
    split_ifs at h
    cases h
    exact .inr ⟨rfl, Table.find?_eq_none.mp hrow⟩
  | some b =>
    rw [hrow] at h
    obtain ⟨hb, rfl⟩ := Table.mem_of_find? hrow
    simp only [Option.any_some, Option.isSome_some] at h
    split_ifs at h with hrefused
    cases h
    obtain ⟨bkey, bnode, brevoked⟩ := b
    have howner : bnode = n ∧ brevoked = false := by simpa using (not_or.mp hrefused).2
    obtain ⟨rfl, rfl⟩ := howner
    exact .inl ⟨rfl, hb⟩

theorem Ledger.bindKey_ok (h : l.bindKey n k = .ok l') : Binds n k l l' := by
  unfold Ledger.bindKey at h
  cases hrefuse : l.refuseForeignKey n k with
  | error fault => simp [hrefuse, bind, Except.bind] at h
  | ok bound =>
    rcases Ledger.refuseForeignKey_ok hrefuse with ⟨rfl, hmem⟩ | ⟨rfl, hfree⟩
    · simp only [hrefuse, bind, Except.bind, if_true, pure, Except.pure, Except.ok.injEq] at h
      subst h
      exact ⟨rfl, rfl, rfl, fun b => ⟨.inl, fun hb => hb.elim id (· ▸ hmem)⟩⟩
    · simp only [hrefuse, bind, Except.bind, Bool.false_eq_true, if_false, pure, Except.pure, Except.ok.injEq] at h
      subst h
      exact ⟨rfl, rfl, rfl, fun b => by simp [hfree]⟩

theorem Binds.bound (h : Binds n k l l') : ⟨k, n, false⟩ ∈ l'.bindings.rows := (h.bindings _).mpr (.inr rfl)

/-- What a committed write transaction of the input does to the ledger. -/
inductive Changed : Input → Ledger → Ledger → Prop
  | same {i : Input} {l : Ledger} : Changed i l l
  | approved {i : Input} {l m : Ledger} (e : Enrollment) (hbinds : Binds e.node e.key l m) :
      Changed i l { m with enrollments := m.enrollments.insert e }
  | redeemed {i : Input} {l : Ledger} (id : Nat) (state : EnrollmentState) : Changed i l (l.setEnrollment id state)
  | activated {l m : Ledger} (claim : Claim) (serial : Serial) (notAfter : Option Time) (ending : Ending)
      (hbinds : Binds claim.node claim.key l m) :
      Changed (.activate claim serial notAfter ending) l
        (({ m with credentials := m.credentials.put ⟨claim.node, claim.key, serial, true, notAfter⟩ }.dropRenewal
          claim.node).setEnrollment claim.enrollment .activated)
  | revoked {l l' : Ledger} (authorized : Bool) (node : Node) (ending : Ending) (h : l.revoke node = .ok l') :
      Changed (.revoke authorized node ending) l l'
  /-- The key was free, or it is the one staged already. -/
  | staged {l m : Ledger} {q : RenewalRequest} {ending : Ending} (r : Renewal) (hbinds : Binds r.node r.key l m)
      (hfresh : l.bindings.Free r.key ∨ ∃ r' ∈ l.renewals.rows, r'.key = r.key) :
      Changed (.stageRenewal q ending) l { m with renewals := m.renewals.put r }
  | promoted {i : Input} {l m : Ledger} (r : Renewal) (hr : r ∈ l.renewals.rows) (hbinds : Binds r.node r.key l m)
      (hf : ∀ c : Credential, (if c.node = r.node ∧ c.active then
        { c with key := r.key, serial := r.serial, notAfter := some r.notAfter } else c).node = c.node) :
      Changed i l ({ m with
        credentials := m.credentials.update (fun c => if c.node = r.node ∧ c.active then
          { c with key := r.key, serial := r.serial, notAfter := some r.notAfter } else c) hf }.dropRenewal r.node)

theorem Ledger.approve_changed {e : Enrollment} (h : l.approve e = .ok l') : Changed i l l' := by
  unfold Ledger.approve at h
  cases hb : l.bindKey e.node e.key with
  | error fault => simp [hb, bind, Except.bind] at h
  | ok m =>
    simp only [hb, bind, Except.bind] at h
    split_ifs at h
    cases h
    exact .approved e (Ledger.bindKey_ok hb)

theorem Ledger.redeem_changed {id code epoch : Nat} {now : Time} {claim : Option Claim}
    (h : l.redeem id k code epoch now = .ok (claim, l')) : Changed i l l' := by
  unfold Ledger.redeem at h
  split at h
  · cases h
  · split_ifs at h <;> cases h <;> exact .redeemed _ _

variable {notAfter : Option Time} {ending : Ending} {claim : Claim} {result : Bool} {t : StagedRenewal} {q : RenewalRequest}
  {promotions : Nat → Option Promotion}

theorem Ledger.activate_changed (h : l.activate claim c notAfter = .ok l') :
    Changed (.activate claim c notAfter ending) l l' := by
  unfold Ledger.activate at h
  split at h
  · cases h
  · rename_i row hrow
    by_cases hrefused : row.state ≠ .consumed ∨ row.node ≠ claim.node ∨ row.key ≠ claim.key
    · simp [hrefused, bind, Except.bind, throw, throwThe, MonadExceptOf.throw] at h
    · simp only [hrefused, if_false, bind, Except.bind, pure, Except.pure] at h
      cases hb : l.bindKey claim.node claim.key with
      | error fault => simp [hb] at h
      | ok m =>
        simp only [hb, Except.ok.injEq] at h
        subst h
        exact .activated claim c notAfter ending (Ledger.bindKey_ok hb)

theorem Ledger.isActive_iff : l.isActive n k c = true ↔
    ∃ row ∈ l.credentials.rows, row.node = n ∧ row.key = k ∧ row.serial = c ∧ row.active = true := by
  unfold Ledger.isActive
  rw [Option.any_eq_true]
  constructor
  · rintro ⟨row, hrow, hmatch⟩
    obtain ⟨hmem, hnode⟩ := Table.mem_of_find? hrow
    simp only [decide_eq_true_eq] at hmatch
    exact ⟨row, hmem, hnode, hmatch.2.1, hmatch.2.2, hmatch.1⟩
  · rintro ⟨row, hmem, rfl, rfl, rfl, hactive⟩
    exact ⟨row, Table.find?_of_mem hmem, by simp [hactive]⟩

/-- A promotion that replaces the credential by the staged renewal. -/
structure Won (p : Promotion) (r : Renewal) (l l' : Ledger) : Prop where
  promotable : l.promotable p = some r
  mem : r ∈ l.renewals.rows
  promotion : p = ⟨r.node, r.key, r.serial⟩
  credential : ⟨r.node, r.key, r.serial, true, some r.notAfter⟩ ∈ l'.credentials.rows
  renewals : ∀ r', r' ∈ l'.renewals.rows ↔ r' ∈ l.renewals.rows ∧ r'.node ≠ r.node
  changed : ∀ i, Changed i l l'

theorem Ledger.promoteRenewal_ok {p : Promotion} (h : l.promoteRenewal p.node p.key p.serial = .ok (result, l')) :
    (l.promotable p = none ∧ l' = l ∧ result = l.isActive p.node p.key p.serial) ∨ ∃ r, Won p r l l' := by
  unfold Ledger.promoteRenewal at h
  cases hstaged : l.promotable p with
  | none =>
    unfold Ledger.promotable at hstaged
    simp only [hstaged] at h
    cases h
    exact .inl ⟨rfl, rfl, rfl⟩
  | some r =>
    have hfiltered := hstaged
    unfold Ledger.promotable at hfiltered
    simp only [hfiltered] at h
    obtain ⟨node, key, serial⟩ := p
    cases hb : l.bindKey node key with
    | error fault => simp [hb, bind, Except.bind] at h
    | ok m =>
      simp only [hb, bind, Except.bind, pure, Except.pure, Except.ok.injEq, Prod.mk.injEq] at h
      obtain ⟨-, rfl⟩ := h
      obtain ⟨hfind, hpair⟩ := Option.filter_eq_some_iff.mp hfiltered
      split_ifs at hfind with hactive
      obtain ⟨hr, rfl⟩ := Table.mem_of_find? hfind
      obtain ⟨rfl, rfl⟩ : r.key = key ∧ r.serial = serial := by simpa using hpair
      have hbinds := Ledger.bindKey_ok hb
      refine .inr ⟨r, hstaged, hr, rfl, ?_, fun r' => ?_, fun i => .promoted r hr hbinds _⟩
      · obtain ⟨row, hrow, hrowActive⟩ := (Option.any_eq_true _ _).mp hactive
        obtain ⟨hmem, hnode⟩ := Table.mem_of_find? hrow
        rw [← hbinds.credentials] at hmem
        refine List.mem_map.mpr ⟨row, hmem, ?_⟩
        rw [if_pos ⟨hnode, hrowActive⟩, hrowActive, hnode]
      · unfold Ledger.dropRenewal
        rw [Table.mem_delete, hbinds.renewals]
        simp

/-- The row is the renewal. -/
def Renewal.Is (r : Renewal) (t : StagedRenewal) : Prop :=
  r.key = t.key ∧ r.serial = t.serial ∧ r.notAfter = t.notAfter ∧ r.certificate = some t.certificate

/-- What `stage_renewal` does: it returns the row that is staged, gives it a certificate, or stages one for a key that no
binding has. -/
inductive Stages (q : RenewalRequest) (l : Ledger) : StagedRenewal → Ledger → Prop
  | kept {t : StagedRenewal} {r : Renewal} (hr : r ∈ l.renewals.rows) (his : r.Is t) : Stages q l t l
  | certified {r : Renewal} (hr : r ∈ l.renewals.rows) (hkey : r.key = q.key) (hnone : r.certificate = none)
      (hmem : ⟨q.key, q.node, false⟩ ∈ l.bindings.rows) : Stages q l ⟨q.key, q.serial, q.notAfter, q.certificate⟩
        { l with renewals := l.renewals.put ⟨q.node, q.key, q.serial, q.notAfter, some q.certificate⟩ }
  | fresh (hfree : l.bindings.Free q.key)
      (hheld : (l.bindings.rows.countP fun b => b.node = q.node) < maxKeyBindingsPerNode) :
      Stages q l ⟨q.key, q.serial, q.notAfter, q.certificate⟩
        { l with
          bindings := l.bindings.insert ⟨q.key, q.node, false⟩
          renewals := l.renewals.put ⟨q.node, q.key, q.serial, q.notAfter, some q.certificate⟩ }

theorem Ledger.stageRenewal_ok (h : l.stageRenewal q = .ok (t, l')) : Stages q l t l' := by
  unfold Ledger.stageRenewal at h
  simp only [bind, Except.bind, pure, Except.pure, throw, throwThe, MonadExceptOf.throw] at h
  iterate 5 (split at h; · cases h)
  cases hrefuse : l.refuseForeignKey q.node q.key with
  | error fault => simp [hrefuse] at h
  | ok bound =>
    rcases Ledger.refuseForeignKey_ok hrefuse with ⟨rfl, hmem⟩ | ⟨rfl, hfree⟩
    · simp only [hrefuse, if_true] at h
      split at h
      · cases h
      · rename_i current hcurrent
        split_ifs at h with hkey
        obtain ⟨hrow, -⟩ := Table.mem_of_find? hcurrent
        split at h
        · rename_i kept hkept
          split_ifs at h
          cases h
          exact .kept hrow ⟨not_not.mp hkey, rfl, rfl, hkept⟩
        · rename_i hnone
          cases h
          exact .certified hrow (not_not.mp hkey) hnone hmem
    · have hbind : l.bindKey q.node q.key = .ok { l with bindings := l.bindings.insert ⟨q.key, q.node, false⟩ } := by
        simp [Ledger.bindKey, hrefuse, bind, Except.bind, pure, Except.pure]
      simp only [hrefuse, Bool.false_eq_true, if_false] at h
      split_ifs at h with hheld
      rw [hbind] at h
      cases h
      exact .fresh hfree (not_le.mp hheld)

theorem Stages.changed (h : Stages q l t l') : Changed (.stageRenewal q ending) l l' := by
  cases h with
  | kept => exact .same
  | certified hr hkey _ hmem =>
    have hbinds : Binds q.node q.key l l := ⟨rfl, rfl, rfl, fun b => ⟨.inl, fun hb => hb.elim id (· ▸ hmem)⟩⟩
    exact .staged ⟨q.node, q.key, q.serial, q.notAfter, some q.certificate⟩ hbinds (.inr ⟨_, hr, hkey⟩)
  | fresh hfree _ =>
    have hbinds : Binds q.node q.key l { l with bindings := l.bindings.insert ⟨q.key, q.node, false⟩ } :=
      ⟨rfl, rfl, rfl, fun b => by simp [hfree]⟩
    exact .staged ⟨q.node, q.key, q.serial, q.notAfter, some q.certificate⟩ hbinds (.inl hfree)

/-- The call that a transaction makes, with its answer. -/
inductive Body (l : Ledger) (promotions : Nat → Option Promotion) : Input → Answer → Ledger → Prop
  | approve {authorized enrollment node key code processEpoch now ending l'}
      (h : l.approve ⟨enrollment, node, key, code, processEpoch, now + codeLifetime, .pending⟩ = .ok l') :
      Body l promotions (.approve authorized enrollment node key code processEpoch now ending) .done l'
  | expire {enrollment key code processEpoch now ending l'}
      (h : l.redeem enrollment key code processEpoch now = .ok (none, l')) :
      Body l promotions (.redeem enrollment key code processEpoch now ending) (.raised .enrollmentUnavailable) l'
  | redeem {enrollment key code processEpoch now ending claim l'}
      (h : l.redeem enrollment key code processEpoch now = .ok (some claim, l')) :
      Body l promotions (.redeem enrollment key code processEpoch now ending) (.claimed claim) l'
  | activate {claim serial notAfter ending l'} (h : l.activate claim serial notAfter = .ok l') :
      Body l promotions (.activate claim serial notAfter ending) .done l'
  | revoke {authorized node ending l'} (h : l.revoke node = .ok l') :
      Body l promotions (.revoke authorized node ending) .done l'
  | stageRenewal {request ending t l'} (h : l.stageRenewal request = .ok (t, l')) :
      Body l promotions (.stageRenewal request ending) (.staged t) l'
  | idle {call ending} (hp : promotions call = none) : Body l promotions (.promote call ending) .pending l
  | promote {call ending p result l'} (hp : promotions call = some p)
      (h : l.promoteRenewal p.node p.key p.serial = .ok (result, l')) :
      Body l promotions (.promote call ending) (.admitted p.node p.key p.serial result) l'
  | admits {call node key serial fails} : Body l promotions (.admits call node key serial fails) .pending l

theorem Input.body_ok {a : Answer} (h : i.body l promotions = .ok (a, l')) : Body l promotions i a l' := by
  cases i with
  | approve | activate | revoke =>
    simp only [Input.body, bind, Except.bind, throw, throwThe, MonadExceptOf.throw] at h
    split_ifs at h
    split at h
    · cases h
    · rename_i m hm
      cases h
      constructor
      exact hm
  | redeem =>
    simp only [Input.body, bind, Except.bind] at h
    split at h
    · cases h
    · rename_i r hr
      obtain ⟨claim, m⟩ := r
      cases claim with
      | none =>
        cases h
        exact .expire hr
      | some claim =>
        cases h
        exact .redeem hr
  | stageRenewal =>
    simp only [Input.body, bind, Except.bind] at h
    split at h
    · cases h
    · rename_i r hr
      cases h
      exact .stageRenewal hr
  | promote call =>
    simp only [Input.body] at h
    split at h
    · rename_i hp
      cases h
      exact .idle hp
    · rename_i p hp
      simp only [bind, Except.bind] at h
      split at h
      · cases h
      · rename_i r hr
        cases h
        exact .promote hp hr
  | admits =>
    cases h
    exact .admits

theorem Body.changed {a : Answer} (h : Body l promotions i a l') : Changed i l l' := by
  cases h with
  | approve h => exact Ledger.approve_changed h
  | expire h | redeem h => exact Ledger.redeem_changed h
  | activate h => exact Ledger.activate_changed h
  | revoke h => exact .revoked _ _ _ h
  | stageRenewal h => exact (Ledger.stageRenewal_ok h).changed
  | promote _ h =>
    rcases Ledger.promoteRenewal_ok h with ⟨-, rfl, -⟩ | ⟨r, hwon⟩
    · exact .same
    · exact hwon.changed _
  | idle | admits => exact .same

/-- What a step is, apart from the reading of `admits`. -/
inductive Stepped (i : Input) (s : State) : Output → Ledger → Prop
  | kept {o : Output} (hc : o.committed = false) : Stepped i s o s.ledger
  | committed {o : Output} {l' : Ledger} (hc : o.committed = true) (h : Changed i s.ledger l') : Stepped i s o l'

theorem transact_stepped (ending : Ending) : Stepped i s (transact s.ledger ending (i.body s.ledger s.promotions)).1
    (transact s.ledger ending (i.body s.ledger s.promotions)).2 := by
  unfold transact
  split
  · exact .kept rfl
  · rename_i a l' hbody
    cases ending with
    | committed => exact .committed rfl ((Input.body_ok hbody).changed)
    | rolledBack => exact .kept rfl
    | unknown => exact .committed rfl ((Input.body_ok hbody).changed)

theorem stepped (i : Input) (s : State) : Stepped i s (step i s).1 (step i s).2.ledger := by
  unfold step
  split
  · split_ifs
    · exact .kept rfl
    · split
      · exact .kept rfl
      · exact .kept rfl
  all_goals exact transact_stepped _

theorem Ledger.isActive_of_admits (h : l.admits n k c = some true) : l.isActive n k c = true := by
  unfold Ledger.admits at h
  unfold Ledger.isActive
  cases hrow : l.credentials.find? n with
  | none => simp [hrow] at h
  | some row =>
    rw [hrow] at h
    dsimp only at h
    split_ifs at h with hactive hpair
    · simp [hactive, hpair]
    · cases h
    · cases h

theorem Body.admitted (h : Body l promotions i (.admitted n k c true) l') : l'.isActive n k c = true := by
  cases h with
  | promote _ h =>
    rcases Ledger.promoteRenewal_ok h with ⟨-, rfl, hresult⟩ | ⟨r, hwon⟩
    · exact hresult.symm
    · cases hwon.promotion
      exact Ledger.isActive_iff.mpr ⟨_, hwon.credential, rfl, rfl, rfl, rfl⟩

theorem transact_admitted (h : (transact l ending (i.body l s.promotions)).1.answer = .admitted n k c true) :
    (transact l ending (i.body l s.promotions)).2.isActive n k c = true := by
  unfold transact at h ⊢
  split at h
  · cases h
  · rename_i a l' hbody
    cases ending with
    | committed =>
      replace h : a = .admitted n k c true := h
      subst h
      exact (Input.body_ok hbody).admitted
    | rolledBack | unknown => cases h

/-- A step that admits a pair leaves it as the active credential of the node. -/
theorem step_admitted (h : (step i s).1.answer = .admitted n k c true) :
    (step i s).2.ledger.isActive n k c = true := by
  cases i with
  | admits call node key serial fails =>
    unfold step at h ⊢
    dsimp only at h ⊢
    split_ifs at h ⊢
    cases hread : s.ledger.admits node key serial with
    | none => simp [hread] at h
    | some result =>
      simp only [hread, Answer.admitted.injEq] at h ⊢
      obtain ⟨rfl, rfl, rfl, rfl⟩ := h
      exact Ledger.isActive_of_admits hread
  | _ => exact transact_admitted h

/-! ## One change of the ledger -/

/-- Every key that a table names is bound to the node that the row names, and the key of an active credential is
not revoked. -/
structure Sound (l : Ledger) : Prop where
  enrollment : ∀ e ∈ l.enrollments.rows, l.Bound e.node e.key
  credential : ∀ c ∈ l.credentials.rows, l.Bound c.node c.key
  renewal : ∀ r ∈ l.renewals.rows, l.Bound r.node r.key
  active : ∀ c ∈ l.credentials.rows, c.active = true → ⟨c.key, c.node, false⟩ ∈ l.bindings.rows

/-- Bindings stay, and stay revoked. -/
def Keeps (l l' : Ledger) : Prop :=
  ∀ b ∈ l.bindings.rows, ∃ b' ∈ l'.bindings.rows, b'.key = b.key ∧ b'.node = b.node ∧
    (b.revoked = true → b'.revoked = true)

theorem Keeps.refl (l : Ledger) : Keeps l l := fun b hb => ⟨b, hb, rfl, rfl, id⟩

theorem Keeps.trans {l l' l'' : Ledger} (h : Keeps l l') (h' : Keeps l' l'') : Keeps l l'' := by
  intro b hb
  obtain ⟨b', hb', hkey, hnode, hrevoked⟩ := h b hb
  obtain ⟨b'', hb'', hkey', hnode', hrevoked'⟩ := h' b' hb'
  exact ⟨b'', hb'', hkey'.trans hkey, hnode'.trans hnode, hrevoked' ∘ hrevoked⟩

theorem Keeps.bound (h : Keeps l l') (hb : l.Bound n k) : l'.Bound n k := by
  obtain ⟨b, hb, rfl, rfl⟩ := hb
  obtain ⟨b', hb', hkey, hnode, -⟩ := h b hb
  exact ⟨b', hb', hkey, hnode⟩

theorem Binds.keeps (h : Binds n k l l') : Keeps l l' := fun b hb => ⟨b, (h.bindings b).mpr (.inl hb), rfl, rfl, id⟩

theorem Ledger.Bound.node_eq {n' : Node} (h : l.Bound n k) (h' : l.Bound n' k) : n = n' := by
  obtain ⟨b, hb, hkey, rfl⟩ := h
  obtain ⟨b', hb', hkey', rfl⟩ := h'
  rw [Table.eq_of_key hb hb' (hkey.trans hkey'.symm)]

theorem Ledger.revoke_ok (h : l.revoke n = .ok l') :
    (∀ e' ∈ l'.enrollments.rows, ∃ e ∈ l.enrollments.rows, e'.node = e.node ∧ e'.key = e.key) ∧
    (∀ c' ∈ l'.credentials.rows, ∃ c ∈ l.credentials.rows, c'.node = c.node ∧ c'.key = c.key ∧ c'.serial = c.serial ∧
      (c'.active = true → c.active = true ∧ c.node ≠ n)) ∧
    (∀ r ∈ l'.renewals.rows, r ∈ l.renewals.rows) ∧
    (∀ b ∈ l.bindings.rows, ∃ b' ∈ l'.bindings.rows, b'.key = b.key ∧ b'.node = b.node ∧
      b'.revoked = (b.revoked || decide (b.node = n))) := by
  unfold Ledger.revoke at h
  dsimp only at h
  split_ifs at h
  cases h
  refine ⟨fun e' he' => ?_, fun c' hc' => ?_, fun r hr => (Table.mem_delete.mp hr).1, fun b hb => ?_⟩
  · obtain ⟨e, he, rfl⟩ := List.mem_map.mp he'
    exact ⟨e, he, by split <;> simp⟩
  · obtain ⟨c, hc, rfl⟩ := List.mem_map.mp hc'
    refine ⟨c, hc, ?_⟩
    by_cases hrow : c.node = n ∧ c.active = true
    · simp [hrow]
    · rw [if_neg hrow]
      exact ⟨rfl, rfl, rfl, fun hactive => ⟨hactive, fun hnode => hrow ⟨hnode, hactive⟩⟩⟩
  · refine ⟨_, List.mem_map.mpr ⟨b, hb, rfl⟩, ?_⟩
    by_cases hnode : b.node = n
    · simp [hnode]
    · simp [hnode]

theorem Ledger.revoke_pairs (h : l.revoke n = .ok l') (row : Credential) (hrow : row ∈ l.credentials.rows) :
    ∃ row' ∈ l'.credentials.rows, row'.node = row.node ∧ row'.key = row.key ∧ row'.serial = row.serial := by
  unfold Ledger.revoke at h
  dsimp only at h
  split_ifs at h
  cases h
  refine ⟨_, List.mem_map.mpr ⟨row, hrow, rfl⟩, ?_⟩
  split <;> simp

theorem Ledger.revoke_keeps (h : l.revoke n = .ok l') : Keeps l l' := by
  intro b hb
  obtain ⟨b', hb', hkey, hnode, hrevoked⟩ := (Ledger.revoke_ok h).2.2.2 b hb
  exact ⟨b', hb', hkey, hnode, fun h => by simp [hrevoked, h]⟩

theorem Changed.keeps (h : Changed i l l') : Keeps l l' := by
  cases h with
  | same => exact .refl l
  | approved e hbinds => exact hbinds.keeps
  | redeemed id state => exact .refl l
  | activated claim serial notAfter ending hbinds => exact hbinds.keeps
  | revoked authorized node ending h => exact Ledger.revoke_keeps h
  | staged r hbinds | promoted r hr hbinds => exact hbinds.keeps

theorem Binds.sound (h : Binds n k l l') (hl : Sound l) : Sound l' where
  enrollment e he := h.keeps.bound (hl.enrollment e (h.enrollments ▸ he))
  credential c hc := h.keeps.bound (hl.credential c (h.credentials ▸ hc))
  renewal r hr := h.keeps.bound (hl.renewal r (h.renewals ▸ hr))
  active c hc hactive := (h.bindings _).mpr (.inl (hl.active c (h.credentials ▸ hc) hactive))

theorem Sound.setEnrollment (h : Sound l) (id : Nat) (state : EnrollmentState) : Sound (l.setEnrollment id state) where
  enrollment e' he' := by
    obtain ⟨e, he, rfl⟩ := List.mem_map.mp he'
    have hbound := h.enrollment e he
    split <;> exact hbound
  credential := h.credential
  renewal := h.renewal
  active := h.active

theorem Sound.dropRenewal (h : Sound l) (node : Node) : Sound (l.dropRenewal node) where
  enrollment := h.enrollment
  credential := h.credential
  renewal r hr := h.renewal r (Table.mem_delete.mp hr).1
  active := h.active

theorem Changed.sound (h : Changed i l l') (hl : Sound l) : Sound l' := by
  cases h with
  | same => exact hl
  | redeemed id state => exact hl.setEnrollment id state
  | approved e hbinds =>
    have hm := hbinds.sound hl
    refine ⟨fun e' he' => ?_, hm.credential, hm.renewal, hm.active⟩
    rcases Table.mem_insert.mp he' with he' | ⟨rfl, -⟩
    · exact hm.enrollment e' he'
    · exact ⟨_, hbinds.bound, rfl, rfl⟩
  | activated claim serial notAfter ending hbinds =>
    have hm := hbinds.sound hl
    refine Sound.setEnrollment (Sound.dropRenewal ?_ _) _ _
    refine ⟨hm.enrollment, fun c hc => ?_, hm.renewal, fun c hc hactive => ?_⟩
    · rcases Table.mem_put.mp hc with rfl | ⟨hc, -⟩
      · exact ⟨_, hbinds.bound, rfl, rfl⟩
      · exact hm.credential c hc
    · rcases Table.mem_put.mp hc with rfl | ⟨hc, -⟩
      · exact hbinds.bound
      · exact hm.active c hc hactive
  | revoked authorized node ending h =>
    have hkeeps := Ledger.revoke_keeps h
    obtain ⟨henrollments, hcredentials, hrenewals, hbindings⟩ := Ledger.revoke_ok h
    refine ⟨fun e' he' => ?_, fun c' hc' => ?_, fun r hr => hkeeps.bound (hl.renewal r (hrenewals r hr)),
      fun c' hc' hactive => ?_⟩
    · obtain ⟨e, he, hnode, hkey⟩ := henrollments e' he'
      rw [hnode, hkey]
      exact hkeeps.bound (hl.enrollment e he)
    · obtain ⟨c, hc, hnode, hkey, -⟩ := hcredentials c' hc'
      rw [hnode, hkey]
      exact hkeeps.bound (hl.credential c hc)
    · -- a credential that is still active is of another node, and so is its key
      obtain ⟨c, hc, hnode, hkey, -, hstill⟩ := hcredentials c' hc'
      obtain ⟨hwas, hother⟩ := hstill hactive
      obtain ⟨b', hb', hkey', hnode', hrevoked⟩ := hbindings _ (hl.active c hc hwas)
      have heq : b' = ⟨c'.key, c'.node, false⟩ := by
        obtain ⟨bkey, bnode, brevoked⟩ := b'
        simp_all
      exact heq ▸ hb'
  | staged r hbinds =>
    have hm := hbinds.sound hl
    refine ⟨hm.enrollment, hm.credential, fun r' hr' => ?_, hm.active⟩
    rcases Table.mem_put.mp hr' with rfl | ⟨hr', -⟩
    · exact ⟨_, hbinds.bound, rfl, rfl⟩
    · exact hm.renewal r' hr'
  | promoted r hr hbinds =>
    have hm := hbinds.sound hl
    refine Sound.dropRenewal ?_ _
    refine ⟨hm.enrollment, fun c' hc' => ?_, hm.renewal, fun c' hc' hactive => ?_⟩
    · obtain ⟨c, hc, rfl⟩ := List.mem_map.mp hc'
      split_ifs with hrow
      · exact ⟨_, hbinds.bound, rfl, hrow.1.symm⟩
      · exact hm.credential c hc
    · obtain ⟨c, hc, rfl⟩ := List.mem_map.mp hc'
      split_ifs at hactive ⊢ with hrow
      · rw [show c.node = r.node from hrow.1]
        exact hbinds.bound
      · exact hm.active c hc hactive

/-! ## Pairs that were replaced -/

/-- The pair can come back only by an activation: no credential has it, and its key is bound and not staged. -/
structure Retired (k : Key) (c : Serial) (l : Ledger) : Prop where
  credential : ∀ row ∈ l.credentials.rows, ¬(row.key = k ∧ row.serial = c)
  renewal : ∀ r ∈ l.renewals.rows, r.key ≠ k
  bound : ¬l.bindings.Free k

/-- The change is an activation of the pair. -/
def Input.Names (i : Input) (k : Key) (c : Serial) : Prop :=
  ∃ claim notAfter ending, i = .activate claim c notAfter ending ∧ claim.key = k

theorem Keeps.not_free (h : Keeps l l') (hk : ¬l.bindings.Free k) : ¬l'.bindings.Free k := by
  intro hfree
  refine hk fun b hb heq => ?_
  obtain ⟨b', hb', hkey, -⟩ := h b hb
  exact hfree b' hb' (hkey.trans heq)

theorem Changed.retired (h : Changed i l l') (hr : Retired k c l) (hnames : ¬i.Names k c) : Retired k c l' := by
  refine ⟨?_, ?_, h.keeps.not_free hr.bound⟩
  · cases h with
    | same | redeemed id state => exact hr.credential
    | approved e hbinds | staged r hbinds =>
      rw [hbinds.credentials]
      exact hr.credential
    | activated claim serial notAfter ending hbinds =>
      intro row hrow
      rcases Table.mem_put.mp hrow with rfl | ⟨hrow, -⟩
      · rintro ⟨hkey, rfl⟩
        exact hnames ⟨claim, notAfter, ending, rfl, hkey⟩
      · exact hr.credential row (hbinds.credentials ▸ hrow)
    | revoked authorized node ending h =>
      intro row hrow
      obtain ⟨row', hrow', -, hkey, hserial, -⟩ := (Ledger.revoke_ok h).2.1 row hrow
      rw [hkey, hserial]
      exact hr.credential row' hrow'
    | promoted r hmem hbinds =>
      intro row hrow
      obtain ⟨row', hrow', rfl⟩ := List.mem_map.mp hrow
      split_ifs
      · exact fun hpair => hr.renewal r hmem hpair.1
      · exact hr.credential row' (hbinds.credentials ▸ hrow')
  · cases h with
    | same | redeemed id state => exact hr.renewal
    | approved e hbinds =>
      rw [hbinds.renewals]
      exact hr.renewal
    | activated claim serial notAfter ending hbinds =>
      exact fun r h => hr.renewal r (hbinds.renewals ▸ (Table.mem_delete.mp h).1)
    | revoked authorized node ending h => exact fun r hmem => hr.renewal r ((Ledger.revoke_ok h).2.2.1 r hmem)
    | promoted r hmem hbinds => exact fun r h => hr.renewal r (hbinds.renewals ▸ (Table.mem_delete.mp h).1)
    | staged r hbinds hfresh =>
      intro r' hr' heq
      rcases Table.mem_put.mp hr' with rfl | ⟨hr', -⟩
      · rcases hfresh with hfree | ⟨old, hold, hkey⟩
        · exact hr.bound (heq ▸ hfree)
        · exact hr.renewal old hold (hkey.trans heq)
      · exact hr.renewal r' (hbinds.renewals ▸ hr') heq

/-- The change takes the pair from the credential of a node. -/
def Replaces (k : Key) (c : Serial) (l l' : Ledger) : Prop :=
  ∃ row ∈ l.credentials.rows, row.key = k ∧ row.serial = c ∧
    ∀ row' ∈ l'.credentials.rows, row'.node = row.node → ¬(row'.key = k ∧ row'.serial = c)

theorem Changed.retires (h : Changed i l l') (hl : Sound l) (hreplaces : Replaces k c l l') : Retired k c l' := by
  obtain ⟨row, hrow, rfl, rfl, hgone⟩ := hreplaces
  have hbound := hl.credential row hrow
  have hsound := h.sound hl
  have hafter := h.keeps.bound hbound
  refine ⟨fun row' hrow' hpair => ?_, fun r hr heq => ?_, ?_⟩
  · -- a credential of another node has another key
    refine hgone row' hrow' ?_ hpair
    exact Ledger.Bound.node_eq (hpair.1 ▸ hsound.credential row' hrow') hafter
  · have hnode : r.node = row.node := Ledger.Bound.node_eq (heq ▸ hsound.renewal r hr) hafter
    -- only an activation and a promotion change the pair, and both drop what is staged for the node
    cases h with
    | same | redeemed id state => exact hgone row hrow rfl ⟨rfl, rfl⟩
    | approved e hbinds | staged r hbinds => exact hgone row (hbinds.credentials ▸ hrow) rfl ⟨rfl, rfl⟩
    | revoked authorized node ending h =>
      obtain ⟨row', hrow', hsame, hpair⟩ := Ledger.revoke_pairs h row hrow
      exact hgone row' hrow' hsame hpair
    | activated claim serial notAfter ending hbinds =>
      by_cases hsame : row.node = claim.node
      · have := (Table.mem_delete.mp hr).2
        simp [hnode, hsame] at this
      · exact hgone row (Table.mem_put.mpr (.inr ⟨hbinds.credentials ▸ hrow, hsame⟩)) rfl ⟨rfl, rfl⟩
    | promoted r' hmem hbinds hf =>
      by_cases hsame : row.node = r'.node
      · have := (Table.mem_delete.mp hr).2
        simp [hnode, hsame] at this
      · refine hgone row (List.mem_map.mpr ⟨row, hbinds.credentials ▸ hrow, ?_⟩) rfl ⟨rfl, rfl⟩
        rw [if_neg fun h => hsame h.1]
  · obtain ⟨b, hb, hkey, -⟩ := hafter
    exact fun hfree => hfree b hb hkey

/-! ## Ledgers to start from -/

theorem sound_empty : Sound {} := ⟨nofun, nofun, nofun, nofun⟩

/-- A ledger that the migration makes is sound. -/
theorem migrate_sound {enrollments : Table Enrollment.id} {credentials : Table Credential.node}
    (h : migrate enrollments credentials = some l) : Sound l := by
  unfold migrate at h
  dsimp only at h
  split_ifs at h with hlive hnodup
  cases h
  generalize hold : ({ enrollments := enrollments, credentials := credentials } : Ledger).holdings = holdings at *
  have hbound : ∀ b ∈ holdings, ∃ b' ∈ ((holdings.map fun b => (b.key, b.node)).dedup.map fun o =>
      (⟨o.1, o.2, holdings.any fun b => b.key = o.1 ∧ b.node = o.2 ∧ b.revoked⟩ : Binding)),
      b'.key = b.key ∧ b'.node = b.node := by
    intro b hb
    refine ⟨_, List.mem_map.mpr ⟨(b.key, b.node), List.mem_dedup.mpr (List.mem_map.mpr ⟨b, hb, rfl⟩), rfl⟩, rfl, rfl⟩
  have hcredential : ∀ c ∈ credentials.rows, (⟨c.key, c.node, !c.active⟩ : Binding) ∈ holdings := fun c hc => by
    rw [← hold]
    exact List.mem_append_left _ (List.mem_map.mpr ⟨c, hc, rfl⟩)
  have henrollment : ∀ e ∈ enrollments.rows, (⟨e.key, e.node, e.state == .revoked⟩ : Binding) ∈ holdings := fun e he => by
    rw [← hold]
    exact List.mem_append_right _ (List.mem_map.mpr ⟨e, he, rfl⟩)
  refine ⟨fun e he => hbound _ (henrollment e he), fun c hc => hbound _ (hcredential c hc),
    fun _ h => absurd h List.not_mem_nil, fun c hc hactive => ?_⟩
  -- a revoked key that is in use would have failed the migration
  have hkept : (holdings.any fun b => b.key = c.key ∧ b.node = c.node ∧ b.revoked) = false := by
    rw [List.any_eq_false]
    intro b hb hmatch
    simp only [decide_eq_true_eq] at hmatch
    refine hlive (List.any_eq_true.mpr ⟨b, hb, ?_⟩)
    have hin : ({ enrollments := enrollments, credentials := credentials } : Ledger).live b.key = true := by
      unfold Ledger.live
      rw [Bool.or_eq_true]
      exact .inl (List.any_eq_true.mpr ⟨c, hc, by simp [hmatch.1, hactive]⟩)
    simp [hmatch.2.2, hin]
  refine List.mem_map.mpr ⟨(c.key, c.node), ?_, ?_⟩
  · exact List.mem_dedup.mpr (List.mem_map.mpr ⟨_, hcredential c hc, rfl⟩)
  · rw [hkept]

/-- Two nodes: an activated key and one of a consumed enrollment, and a node whose revoked key has a later successor. -/
def earlierEnrollments : Table Enrollment.id :=
  (((Table.empty.insert ⟨1, 10, 101, 301, 0, 300, .activated⟩).insert ⟨2, 10, 102, 302, 0, 300, .consumed⟩).insert
    ⟨3, 20, 103, 303, 0, 300, .revoked⟩).insert ⟨4, 20, 104, 304, 0, 300, .activated⟩

def earlierCredentials : Table Credential.node :=
  (Table.empty.insert ⟨10, 101, 201, true, none⟩).insert ⟨20, 104, 202, true, some 900⟩

theorem migrate_sound_active :
    ∃ l, migrate earlierEnrollments earlierCredentials = some l ∧
      l.bindings.rows = [⟨101, 10, false⟩, ⟨102, 10, false⟩, ⟨103, 20, true⟩, ⟨104, 20, false⟩] ∧ Sound l := by
  obtain ⟨l, hl⟩ := Option.isSome_iff_exists.mp
    (show (migrate earlierEnrollments earlierCredentials).isSome = true by decide)
  refine ⟨l, hl, ?_, migrate_sound hl⟩
  have hrows : (migrate earlierEnrollments earlierCredentials).map (fun l => l.bindings.rows) =
      some [⟨101, 10, false⟩, ⟨102, 10, false⟩, ⟨103, 20, true⟩, ⟨104, 20, false⟩] := by decide
  rw [hl] at hrows
  exact Option.some.inj hrows

/-! ## Runs -/

section Runs

variable {init s' : State} {h later since earlier : List PairingEvent} {e E A R : PairingEvent}

theorem step_keeps (i : Input) (s : State) : Keeps s.ledger (step i s).2.ledger := by
  have hstep := stepped i s
  generalize (step i s).2.ledger = l' at hstep
  cases hstep with
  | kept => exact .refl _
  | committed hc h => exact h.keeps

theorem step_sound (i : Input) (s : State) (hs : Sound s.ledger) : Sound (step i s).2.ledger := by
  have hstep := stepped i s
  generalize (step i s).2.ledger = l' at hstep
  cases hstep with
  | kept => exact hs
  | committed hc h => exact h.sound hs

theorem sound_of_reaches (hs : Reaches step init h s) (hinit : Sound init.ledger) : Sound s.ledger :=
  hs.invariant (P := fun s => Sound s.ledger) hinit step_sound

theorem keeps_since (hs : Reaches step init (since ++ e :: earlier) s) : Keeps e.after.ledger s.ledger :=
  hs.since (P := fun _ s => Keeps e.after.ledger s.ledger) (.refl _) fun i _ h => h.trans (step_keeps i _)

/-- The step is a committed activation of the pair. -/
def Activates (e : PairingEvent) (k : Key) (c : Serial) : Prop := e.input.Names k c ∧ e.output.committed = true

theorem step_retired (hr : Retired k c s.ledger) (hnames : ¬Activates (Event.of step s i) k c) :
    Retired k c (step i s).2.ledger := by
  have hstep := stepped i s
  unfold Activates Event.of at hnames
  generalize (step i s).2.ledger = l' at hstep
  generalize (step i s).1 = o at hstep hnames
  cases hstep with
  | kept => exact hr
  | committed hc h => exact h.retired hr fun hn => hnames ⟨hn, hc⟩

theorem retired_since (hs : Reaches step init (since ++ E :: earlier) s) (hE : Retired k c E.after.ledger)
    (hnone : ∀ B ∈ since, ¬Activates B k c) : Retired k c s.ledger := by
  refine hs.since (P := fun since s => (∀ B ∈ since, ¬Activates B k c) → Retired k c s.ledger) (fun _ => hE) ?_ hnone
  intro since s i _ ih hnone
  obtain ⟨hx, hrest⟩ := List.forall_mem_cons.mp hnone
  exact step_retired (ih hrest) hx

/-- The step committed a revocation of the node. -/
def Revokes (e : PairingEvent) (n : Node) : Prop :=
  (∃ authorized ending, e.input = .revoke authorized n ending) ∧ e.output.committed = true

/-- The step is a transaction of `admits` that returns true. -/
def Admits (e : PairingEvent) (n : Node) (k : Key) (c : Serial) : Prop := e.output.answer = .admitted n k c true

theorem step_revokes (hR : Revokes (Event.of step s i) n) : s.ledger.revoke n = .ok (step i s).2.ledger := by
  obtain ⟨⟨authorized, ending, hi⟩, hc⟩ := hR
  replace hi : i = .revoke authorized n ending := hi
  subst hi
  replace hc : (step (.revoke authorized n ending) s).1.committed = true := hc
  simp only [step, Input.body, bind, Except.bind, throw, throwThe, MonadExceptOf.throw] at hc ⊢
  cases authorized with
  | false => simp [transact] at hc
  | true =>
    cases hrevoke : s.ledger.revoke n with
    | error fault => simp [hrevoke, transact] at hc
    | ok l' => cases ending <;> simp_all [transact, pure, Except.pure]

theorem active_of_admits {m : Node} (hs : Reaches step init (A :: h) s) (hA : Admits A m k c) :
    s.ledger.isActive m k c = true := by
  rw [hs.after_eq]
  rw [hs.head] at hA ⊢
  exact step_admitted hA

/-- A key that was bound to a node that has been revoked is admitted no more. -/
theorem not_admitted_since_revoked (hs : Reaches step init (A :: (since ++ R :: earlier)) s)
    (hinit : Sound init.ledger) (hR : Revokes R n) (hbound : R.before.ledger.Bound n k) (m : Node) (c : Serial) :
    ¬Admits A m k c := by
  intro hA
  -- the binding is revoked, and stays so
  obtain ⟨-, hRstep⟩ := hs.of_cons.event
  have hrevoke : R.before.ledger.revoke n = .ok R.after.ledger := by
    rw [hRstep] at hR ⊢
    exact step_revokes hR
  obtain ⟨b, hb, hkey, hnode⟩ := hbound
  obtain ⟨b', hb', hkey', -, hrevoked'⟩ := (Ledger.revoke_ok hrevoke).2.2.2 b hb
  obtain ⟨b'', hb'', hkey'', -, hrevoked''⟩ := keeps_since (show Reaches step init ((A :: since) ++ R :: earlier) s from hs) b' hb'
  have hrevoked : b''.revoked = true := hrevoked'' (by simp [hrevoked', hnode])
  -- the key of an active credential is not revoked
  obtain ⟨row, hrow, rfl, rfl, rfl, hrowActive⟩ := Ledger.isActive_iff.mp (active_of_admits hs hA)
  have hlive := (sound_of_reaches hs hinit).active row hrow hrowActive
  have heq := Table.eq_of_key hb'' hlive (by simp [hkey'', hkey', hkey])
  simp [heq] at hrevoked

theorem step_activate_answer {m : Node} {d : Serial} :
    (step (.activate claim c notAfter ending) s).1.answer ≠ .admitted m k d result := by
  simp only [step, Input.body, bind, Except.bind, throw, throwThe, MonadExceptOf.throw]
  cases validExpiry notAfter with
  | false => simp [transact]
  | true => cases s.ledger.activate claim c notAfter <;> cases ending <;> simp [transact, pure, Except.pure]

/-- A pair that was replaced is admitted again only after it was activated again. -/
theorem activated_before_admitted (hs : Reaches step init (A :: (since ++ E :: earlier)) s)
    (hinit : Sound init.ledger) (hE : Replaces k c E.before.ledger E.after.ledger) (m : Node) (hA : Admits A m k c) :
    ∃ B ∈ since, Activates B k c := by
  by_contra hnone
  push Not at hnone
  obtain ⟨hEbefore, hEstep⟩ := hs.of_cons.event
  have hretired : Retired k c E.after.ledger := by
    have hstep := stepped E.input E.before
    rw [show (step E.input E.before).2 = E.after by rw [hEstep]; rfl] at hstep
    generalize E.after.ledger = l' at hstep hE
    cases hstep with
    | kept =>
      obtain ⟨row, hrow, rfl, rfl, hgone⟩ := hE
      exact absurd ⟨rfl, rfl⟩ (hgone row hrow rfl)
    | committed hc h => exact h.retires (sound_of_reaches hEbefore hinit) hE
  obtain ⟨row, hrow, -, rfl, rfl, -⟩ := Ledger.isActive_iff.mp (active_of_admits hs hA)
  have hA' : ¬Activates A row.key row.serial := by
    rintro ⟨⟨claim, notAfter, ending, hinput, -⟩, -⟩
    rw [hs.head, hinput] at hA
    exact step_activate_answer hA
  have hs' := retired_since (show Reaches step init ((A :: since) ++ E :: earlier) s from hs) hretired
    (List.forall_mem_cons.mpr ⟨hA', hnone⟩)
  exact hs'.credential row hrow ⟨rfl, rfl⟩

/-- **Key ownership and revocation.** In every run of `approve`, `redeem`, `activate`, `stage_renewal`, `admits` and
`revoke`, with the two transactions of `admits` as steps of their own: every key of the tables is bound to the node
of its row; bindings stay, with their node, and stay revoked; once a node is revoked, no transaction of `admits`
returns true for a key that was bound to it; and a pair of key and certificate that was replaced in the credential
of a node is admitted again only after a committed activation of that pair. -/
theorem key_ownership {init s : State} {h : List PairingEvent} (hinit : Sound init.ledger)
    (hs : Reaches step init h s) :
    (∀ e ∈ s.ledger.enrollments.rows, s.ledger.Bound e.node e.key) ∧
    (∀ c ∈ s.ledger.credentials.rows, s.ledger.Bound c.node c.key) ∧
    (∀ r ∈ s.ledger.renewals.rows, s.ledger.Bound r.node r.key) ∧
    (∀ e ∈ h, ∀ b ∈ e.before.ledger.bindings.rows,
      (∃ b' ∈ s.ledger.bindings.rows, b'.key = b.key) ∧
      ∀ b' ∈ s.ledger.bindings.rows, b'.key = b.key → b'.node = b.node ∧ (b.revoked = true → b'.revoked = true)) ∧
    (∀ later A since R earlier, h = later ++ A :: (since ++ R :: earlier) → ∀ n m k c, Revokes R n →
      R.before.ledger.Bound n k → ¬Admits A m k c) ∧
    (∀ later A since E earlier, h = later ++ A :: (since ++ E :: earlier) → ∀ m k c,
      Replaces k c E.before.ledger E.after.ledger → Admits A m k c → ∃ B ∈ since, Activates B k c) := by
  have hsound := sound_of_reaches hs hinit
  refine ⟨hsound.enrollment, hsound.credential, hsound.renewal, fun e he b hb => ?_, ?_, ?_⟩
  · obtain ⟨since, earlier, rfl⟩ := List.mem_iff_append.mp he
    have hstep : Keeps e.before.ledger e.after.ledger := by
      rw [hs.event.2]
      exact step_keeps _ _
    obtain ⟨b', hb', hkey, hnode, hrevoked⟩ := (hstep.trans (keeps_since hs)) b hb
    refine ⟨⟨b', hb', hkey⟩, fun b'' hb'' hkey'' => ?_⟩
    rw [Table.eq_of_key hb'' hb' (hkey''.trans hkey.symm)]
    exact ⟨hnode, hrevoked⟩
  · rintro later A since R earlier rfl n m k c hR hbound
    obtain ⟨s', hs'⟩ := hs.of_append
    exact not_admitted_since_revoked hs' hinit hR hbound m c
  · rintro later A since E earlier rfl m k c hE hA
    obtain ⟨s', hs'⟩ := hs.of_append
    exact activated_before_admitted hs' hinit hE m hA

/-- A node is paired, renews its key, is paired again with its first key and certificate, and is revoked. -/
def pairedAgain : List Input :=
  [.approve true 1 10 101 7 1 0 .committed, .redeem 1 101 7 1 10 .committed,
    .activate ⟨1, 10, 101⟩ 201 none .committed,
    .stageRenewal ⟨10, 101, 201, 102, 202, 5, ⟨0, some 202⟩⟩ .committed,
    .admits 1 10 102 202 false, .promote 1 .committed, .admits 2 10 101 201 false,
    .approve true 2 10 101 8 1 20 .committed, .redeem 2 101 8 1 30 .committed,
    .activate ⟨2, 10, 101⟩ 201 none .committed, .admits 3 10 101 201 false,
    .revoke true 10 .committed, .admits 4 10 101 201 false]

/-- The first pair is replaced by the promotion, refused, admitted after its second activation, and refused after the
revocation. -/
theorem key_ownership_pairedAgain :
    let run := perform step {} pairedAgain
    (run.1.map fun e => e.output.answer).take 7 =
      [.admitted 10 101 201 false, .done, .admitted 10 101 201 true, .done, .claimed ⟨2, 10, 101⟩, .done,
        .admitted 10 101 201 false] ∧
      ∃ B ∈ (run.1.drop 3).take 4, Activates B 101 201 := by
  intro run
  refine ⟨by decide +kernel, ?_⟩
  refine (key_ownership sound_empty (.perform step {} pairedAgain)).2.2.2.2.2 (run.1.take 2)
    (run.1.get ⟨2, by decide +kernel⟩) _ (run.1.get ⟨7, by decide +kernel⟩) (run.1.drop 8) rfl 10 101 201 ?_ ?_
  · unfold Replaces
    decide +kernel
  · unfold Admits
    decide +kernel

/-- In every run from the empty ledger, the key of an active credential is bound to its node only, is not revoked, and is the key of
no other credential. -/
theorem active_key_exclusive (inputs : List Input) :
    let l := (perform step {} inputs).2.ledger
    ∀ c ∈ l.credentials.rows, c.active = true →
      (∀ b ∈ l.bindings.rows, b.key = c.key → b = ⟨c.key, c.node, false⟩) ∧
      ∀ c' ∈ l.credentials.rows, c'.key = c.key → c' = c := by
  intro l c hc hactive
  have hsound : Sound l := sound_of_reaches (.perform step {} inputs) sound_empty
  have honly : ∀ b ∈ l.bindings.rows, b.key = c.key → b = ⟨c.key, c.node, false⟩ := fun b hb hkey =>
    Table.eq_of_key hb (hsound.active c hc hactive) hkey
  refine ⟨honly, fun c' hc' hkey => ?_⟩
  obtain ⟨b, hb, hbkey, hbnode⟩ := hsound.credential c' hc'
  have hnode : c'.node = c.node := by rw [← hbnode, honly b hb (hbkey.trans hkey)]
  exact Table.eq_of_key hc' hc hnode

end Runs

end Sentinel.Pairing
