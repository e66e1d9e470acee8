import Sentinel.Pairing.Ledger

/-!
# Renewals and their audit records

The steps of the pairing ledger together with `staged_renewal`, and with the rows that its transactions append to the
security audit. A row belongs to the transaction of its change: it is there if the transaction is committed. The outcomes
that `_record` appends in a transaction of its own, after a call that failed or was denied, are left out.
-/

namespace Sentinel.Pairing

/-- The read transaction of `staged_renewal`, with the checks around it. -/
def Ledger.stagedRenewal (l : Ledger) (node : Node) (currentKey : Key) (currentSerial : Serial) (key : Key) :
    Except Fault (Option StagedRenewal) :=
  if key = currentKey then .ok none
  else if ¬l.isActive node currentKey currentSerial then .ok none
  else
    -- the staged row, joined with the binding of its key
    let staged := (l.renewals.find? node).filter fun r =>
      (l.bindings.find? r.key).any fun b => b.node = r.node ∧ ¬b.revoked
    match staged with
    | none => .ok none
    | some r =>
      match r.certificate with
      | none => .ok none
      | some kept =>
        if r.key ≠ key then .ok none
        else if kept.digest ≠ some r.serial then .error .stagedUnavailable
        else .ok (some ⟨key, r.serial, r.notAfter, kept⟩)

/-- `ActorCategory`, as far as the ledger names it. -/
inductive Actor
  | owner
  | captureNode
  | system
  deriving DecidableEq, Repr

/-- `AuditAction`, as far as the ledger names it. -/
inductive AuditAction
  | approveEnrollment
  | redeemEnrollment
  | activateCredential
  | revokePairing
  deriving DecidableEq, Repr

/-- A row of the security audit; its target is a capture node. -/
structure AuditRecord where
  actor : Actor
  action : AuditAction
  node : Node
  succeeded : Bool
  deriving DecidableEq, Repr

/-- The row that the transaction of a step appends. -/
def Input.record (s : State) : Input → Option AuditRecord
  | .approve _ _ node _ _ _ _ _ => some ⟨.owner, .approveEnrollment, node, true⟩
  | .redeem enrollment _ _ processEpoch now _ =>
    (s.ledger.enrollments.find? enrollment).map fun row =>
      ⟨.captureNode, .redeemEnrollment, row.node, ¬(row.processEpoch ≠ processEpoch ∨ row.expiresAt ≤ now)⟩
  | .activate claim _ _ _ => some ⟨.system, .activateCredential, claim.node, true⟩
  | .revoke _ node _ => some ⟨.owner, .revokePairing, node, true⟩
  | .stageRenewal _ _ => none
  | .admits _ _ _ _ _ => none
  | .promote call _ =>
    (s.promotions call).bind fun p => (s.ledger.promotable p).map fun r => ⟨.system, .activateCredential, r.node, true⟩

/-- The ledger and the audit. -/
structure Audited where
  state : State := {}
  audit : List AuditRecord := []

/-- What happens next. -/
inductive Request
  | ledger (i : Input)
  | stagedRenewal (node : Node) (currentKey : Key) (currentSerial : Serial) (key : Key) (fails : Bool)

/-- What a call returns. -/
inductive Reply
  | ledger (o : Output)
  | found (renewal : Option StagedRenewal)
  | raised (fault : Fault)

/-- The staged renewal that a call returns. -/
def Reply.staging : Reply → Option StagedRenewal
  | .ledger ⟨.staged renewal, _⟩ => some renewal
  | .found renewal => renewal
  | _ => none

def renewalStep (q : Request) (s : Audited) : Reply × Audited :=
  match q with
  | .ledger i =>
    let r := step i s.state
    (.ledger r.1, ⟨r.2, if r.1.committed then s.audit ++ (i.record s.state).toList else s.audit⟩)
  | .stagedRenewal node currentKey currentSerial key fails =>
    if fails then (.raised .storage, s)
    else match s.state.ledger.stagedRenewal node currentKey currentSerial key with
    | .error fault => (.raised fault, s)
    | .ok renewal => (.found renewal, s)

/-- A step of a run. -/
abbrev RenewalEvent := Event Audited Request Reply

/-- The step is a transaction that promotes the renewal. -/
def Promotes (e : RenewalEvent) (r : Renewal) : Prop :=
  (∃ call ending, e.input = .ledger (.promote call ending)) ∧ r ∈ e.before.state.ledger.renewals.rows ∧
    r ∉ e.after.state.ledger.renewals.rows

end Sentinel.Pairing
