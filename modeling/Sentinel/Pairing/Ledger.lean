import Sentinel.Lib.History
import Sentinel.Lib.Table

/-!
# The pairing ledger

`PairingLedger` of `server/app/cameras/remote_agent/pairing.py`: which capture node holds which public key, and
which certificate admits it. Every method runs one transaction, apart from `admits`, which reads in one and may
promote a staged renewal in another. Digests and identities are numbers; the checks of their form, the audit rows
and the texts of the errors are left out. A transaction whose audit row or commit fails is one that ends badly.
-/

namespace Sentinel.Pairing

/-- A capture node. -/
abbrev Node := Nat

/-- A public key digest. -/
abbrev Key := Nat

/-- A credential serial digest: the digest of a certificate. -/
abbrev Serial := Nat

/-- A reading of a clock. -/
abbrev Time := Int

/-- `_CODE_LIFETIME_SECONDS`. -/
def codeLifetime : Time := 5 * 60

def maxKeyBindingsPerNode : Nat := 1024

/-- Where an enrollment stands. -/
inductive EnrollmentState
  | pending
  | expired
  | consumed
  | activated
  | revoked
  deriving DecidableEq, Repr

/-- A row of `pairing_enrollments`. -/
structure Enrollment where
  id : Nat
  node : Node
  key : Key
  code : Nat
  processEpoch : Nat
  expiresAt : Time
  state : EnrollmentState
  deriving DecidableEq

/-- A row of `pairing_node_credentials`. -/
structure Credential where
  node : Node
  key : Key
  serial : Serial
  /-- The state is `active`, not `revoked`. -/
  active : Bool
  notAfter : Option Time
  deriving DecidableEq

/-- A PEM text: `digest` is the digest of the one certificate it holds, if it holds one. -/
structure Pem where
  text : Nat
  digest : Option Serial
  deriving DecidableEq

/-- A row of `pairing_node_renewals`. -/
structure Renewal where
  node : Node
  key : Key
  serial : Serial
  notAfter : Time
  certificate : Option Pem
  deriving DecidableEq

/-- A row of `pairing_key_bindings`. -/
structure Binding where
  key : Key
  node : Node
  revoked : Bool
  deriving DecidableEq

/-- The tables of the ledger. -/
structure Ledger where
  enrollments : Table Enrollment.id := .empty
  credentials : Table Credential.node := .empty
  renewals : Table Renewal.node := .empty
  bindings : Table Binding.key := .empty

/-- How a call fails. -/
inductive Fault
  | denied
  | keyBoundToAnother
  | enrollmentUnavailable
  | cannotActivate
  | nodeUnavailable
  | notEligibleForRenewal
  | freshKeyRequired
  | invalidExpiry
  | invalidCertificate
  | stagedUnavailable
  | storage
  deriving DecidableEq, Repr

/-- `EnrollmentClaim`. -/
structure Claim where
  enrollment : Nat
  node : Node
  key : Key
  deriving DecidableEq

/-- The arguments of `stage_renewal`. -/
structure RenewalRequest where
  node : Node
  currentKey : Key
  currentSerial : Serial
  key : Key
  serial : Serial
  notAfter : Time
  certificate : Pem

/-- The renewal that is returned to a node. -/
structure StagedRenewal where
  key : Key
  serial : Serial
  notAfter : Time
  certificate : Pem
  deriving DecidableEq

namespace Ledger

def refuseForeignKey (l : Ledger) (node : Node) (key : Key) : Except Fault Bool :=
  let row := l.bindings.find? key
  let staged := l.renewals.rows.any fun r => r.key = key ∧ r.node ≠ node
  if staged ∨ row.any fun b => b.node ≠ node ∨ b.revoked then .error .keyBoundToAnother
  else .ok row.isSome

def bindKey (l : Ledger) (node : Node) (key : Key) : Except Fault Ledger := do
  if ← l.refuseForeignKey node key then return l
  return { l with bindings := l.bindings.insert ⟨key, node, false⟩ }

/-- The transaction of `approve`. -/
def approve (l : Ledger) (e : Enrollment) : Except Fault Ledger := do
  let l ← l.bindKey e.node e.key
  if l.enrollments.Free e.id then return { l with enrollments := l.enrollments.insert e }
  throw .storage

/-- Set the state of one enrollment. -/
def setEnrollment (l : Ledger) (id : Nat) (state : EnrollmentState) : Ledger :=
  { l with
    enrollments := l.enrollments.update (fun e => if e.id = id then { e with state := state } else e)
      fun e => by split <;> rfl }

/-- The transaction of `redeem`; no claim if the enrollment has expired. -/
def redeem (l : Ledger) (enrollment : Nat) (key : Key) (code processEpoch : Nat) (now : Time) :
    Except Fault (Option Claim × Ledger) :=
  match l.enrollments.find? enrollment with
  | none => .error .enrollmentUnavailable
  | some row =>
    if row.state ≠ .pending then .error .enrollmentUnavailable
    else if row.processEpoch ≠ processEpoch ∨ row.expiresAt ≤ now then
      .ok (none, l.setEnrollment enrollment .expired)
    else if row.code ≠ code then .error .enrollmentUnavailable
    else if row.key ≠ key then .error .enrollmentUnavailable
    else .ok (some ⟨enrollment, row.node, key⟩, l.setEnrollment enrollment .consumed)

/-- Delete the renewal that is staged for the node. -/
def dropRenewal (l : Ledger) (node : Node) : Ledger :=
  { l with renewals := l.renewals.delete fun r => r.node = node }

/-- The transaction of `activate`. -/
def activate (l : Ledger) (claim : Claim) (serial : Serial) (notAfter : Option Time) : Except Fault Ledger := do
  match l.enrollments.find? claim.enrollment with
  | none => throw .cannotActivate
  | some row =>
    if row.state ≠ .consumed ∨ row.node ≠ claim.node ∨ row.key ≠ claim.key then throw .cannotActivate
    let l ← l.bindKey claim.node claim.key
    let l := { l with credentials := l.credentials.put ⟨claim.node, claim.key, serial, true, notAfter⟩ }
    -- a fresh pairing discards any renewal staged for an older identity
    let l := l.dropRenewal claim.node
    return l.setEnrollment claim.enrollment .activated

/-- The transaction of `revoke`. -/
def revoke (l : Ledger) (node : Node) : Except Fault Ledger :=
  let credentials := l.credentials.rows.countP fun c => c.node = node ∧ c.active
  let enrollments := l.enrollments.rows.countP fun e => e.node = node ∧ (e.state = .pending ∨ e.state = .consumed)
  if credentials + enrollments = 0 then .error .nodeUnavailable
  else .ok
    { credentials := l.credentials.update (fun c => if c.node = node ∧ c.active then { c with active := false } else c)
        (fun c => by split <;> rfl)
      enrollments := l.enrollments.update
        (fun e => if e.node = node ∧ (e.state = .pending ∨ e.state = .consumed) then { e with state := .revoked } else e)
        (fun e => by split <;> rfl)
      renewals := (l.dropRenewal node).renewals
      -- no key this node ever held can be bound again, by any node
      bindings := l.bindings.update (fun b => if b.node = node then { b with revoked := true } else b)
        fun b => by split <;> rfl }

/-- The active credential of the node is this key and certificate. -/
def isActive (l : Ledger) (node : Node) (key : Key) (serial : Serial) : Bool :=
  (l.credentials.find? node).any fun c => c.active ∧ c.key = key ∧ c.serial = serial

/-- The renewal staged for the node is this key and certificate. -/
def isStaged (l : Ledger) (node : Node) (key : Key) (serial : Serial) : Bool :=
  (l.renewals.find? node).any fun r => r.key = key ∧ r.serial = serial

/-- What the read transaction of `admits` decides; `none` to promote the staged renewal. -/
def admits (l : Ledger) (node : Node) (key : Key) (serial : Serial) : Option Bool :=
  match l.credentials.find? node with
  | none => some false
  | some row =>
    if ¬row.active then some false
    else if row.key = key ∧ row.serial = serial then some true
    else if l.isStaged node key serial then none
    else some false

/-- The transaction of `_promote_renewal_once`. -/
def promoteRenewal (l : Ledger) (node : Node) (key : Key) (serial : Serial) : Except Fault (Bool × Ledger) := do
  let staged := if (l.credentials.find? node).any (·.active) then l.renewals.find? node else none
  match staged.filter fun r => r.key = key ∧ r.serial = serial with
  | none =>
    -- another connection may have promoted the same renewal since the read
    return (l.isActive node key serial, l)
  | some staged =>
    let l ← l.bindKey node key
    let credentials := l.credentials.update
      (fun c => if c.node = node ∧ c.active then { c with key := key, serial := serial, notAfter := some staged.notAfter }
        else c)
      fun c => by split <;> rfl
    return (true, { l with credentials := credentials }.dropRenewal node)

/-- The transaction of `stage_renewal`, with the checks before it. -/
def stageRenewal (l : Ledger) (q : RenewalRequest) : Except Fault (StagedRenewal × Ledger) := do
  if ¬0 < q.notAfter then throw .invalidExpiry
  if q.certificate.digest ≠ some q.serial then throw .invalidCertificate
  if q.key = q.currentKey then throw .freshKeyRequired
  if ¬l.isActive q.node q.currentKey q.currentSerial then throw .notEligibleForRenewal
  -- an enrollment, in any state, already binds its key to its node
  let reused := l.credentials.rows.any (fun c => c.key = q.key) ||
    l.renewals.rows.any (fun r => r.key = q.key ∧ r.node ≠ q.node) ||
    l.enrollments.rows.any (fun e => e.key = q.key ∧ e.node ≠ q.node)
  if reused then throw .notEligibleForRenewal
  let renewal : Renewal := ⟨q.node, q.key, q.serial, q.notAfter, some q.certificate⟩
  let staged : StagedRenewal := ⟨q.key, q.serial, q.notAfter, q.certificate⟩
  if ← l.refuseForeignKey q.node q.key then
    match l.renewals.find? q.node with
    | none => throw .notEligibleForRenewal
    | some current =>
      if current.key ≠ q.key then throw .notEligibleForRenewal
      match current.certificate with
      | some kept =>
        -- a retry keeps the staged row and gets its certificate
        if kept.digest ≠ some current.serial then throw .stagedUnavailable
        return (⟨q.key, current.serial, current.notAfter, kept⟩, l)
      | none => return (staged, { l with renewals := l.renewals.put renewal })
  else
    if maxKeyBindingsPerNode ≤ l.bindings.rows.countP fun b => b.node = q.node then throw .notEligibleForRenewal
    let l ← l.bindKey q.node q.key
    return (staged, { l with renewals := l.renewals.put renewal })

end Ledger

/-- The keys that the tables of a ledger without bindings hold. -/
def Ledger.holdings (l : Ledger) : List Binding :=
  l.credentials.rows.map (fun c => ⟨c.key, c.node, !c.active⟩) ++
    l.enrollments.rows.map fun e => ⟨e.key, e.node, e.state == .revoked⟩

/-- The key is in use. -/
def Ledger.live (l : Ledger) (key : Key) : Bool :=
  l.credentials.rows.any (fun c => c.key = key ∧ c.active) ||
    l.enrollments.rows.any fun e => e.key = key ∧ (e.state = .pending ∨ e.state = .consumed)

/-- `pairing_renewal_migration`: the bindings of a ledger that has none yet. It fails for a revoked key that is in
use, and for a key that two nodes hold. -/
def migrate (enrollments : Table Enrollment.id) (credentials : Table Credential.node) : Option Ledger :=
  let l : Ledger := { enrollments := enrollments, credentials := credentials }
  if l.holdings.any fun b => b.revoked && l.live b.key then none
  else
    let owners := (l.holdings.map fun b => (b.key, b.node)).dedup
    let bindings : List Binding := owners.map fun o =>
      ⟨o.1, o.2, l.holdings.any fun b => b.key = o.1 ∧ b.node = o.2 ∧ b.revoked⟩
    if h : (bindings.map Binding.key).Nodup then some { l with bindings := ⟨bindings, h⟩ } else none

/-! ## Calls that interleave -/

/-- What happens next. -/
inductive Input
  | approve (authorized : Bool) (enrollment : Nat) (node : Node) (key : Key) (code processEpoch : Nat) (now : Time)
      (ending : Ending)
  | redeem (enrollment : Nat) (key : Key) (code processEpoch : Nat) (now : Time) (ending : Ending)
  | activate (claim : Claim) (serial : Serial) (notAfter : Option Time) (ending : Ending)
  | revoke (authorized : Bool) (node : Node) (ending : Ending)
  | stageRenewal (request : RenewalRequest) (ending : Ending)
  /-- The read transaction of a call of `admits`. -/
  | admits (call : Nat) (node : Node) (key : Key) (serial : Serial) (fails : Bool)
  /-- The write transaction of a call of `admits` that goes on to promote. -/
  | promote (call : Nat) (ending : Ending)

/-- What a call returns. -/
inductive Answer
  | raised (fault : Fault)
  | done
  | claimed (claim : Claim)
  | staged (renewal : StagedRenewal)
  /-- `admits` returned. -/
  | admitted (node : Node) (key : Key) (serial : Serial) (result : Bool)
  /-- `admits` goes on to promote, or there is no such call. -/
  | pending
  deriving DecidableEq

/-- What is seen of a step. -/
structure Output where
  answer : Answer
  committed : Bool := false

/-- A call of `admits` between its two transactions. -/
structure Promotion where
  node : Node
  key : Key
  serial : Serial

/-- The renewal that `_promote_renewal_once` promotes. -/
def Ledger.promotable (l : Ledger) (p : Promotion) : Option Renewal :=
  (if (l.credentials.find? p.node).any (·.active) then l.renewals.find? p.node else none).filter fun r =>
    r.key = p.key ∧ r.serial = p.serial

/-- The ledger, and the calls of `admits` that are under way. -/
structure State where
  ledger : Ledger := {}
  promotions : Nat → Option Promotion := fun _ => none

def transact (l : Ledger) (ending : Ending) (body : Except Fault (Answer × Ledger)) : Output × Ledger :=
  match body with
  | .error fault => (⟨.raised fault, false⟩, l)
  | .ok (answer, l') =>
    match ending with
    | .committed => (⟨answer, true⟩, l')
    | .rolledBack => (⟨.raised .storage, false⟩, l)
    | .unknown => (⟨.raised .storage, true⟩, l')

def validExpiry (notAfter : Option Time) : Bool := notAfter.all fun t => 0 < t

/-- The transaction of a step, where it is a write transaction. -/
def Input.body (l : Ledger) (promotions : Nat → Option Promotion) : Input → Except Fault (Answer × Ledger)
  | .approve authorized enrollment node key code processEpoch now _ => do
    if ¬authorized then throw .denied
    return (.done, ← l.approve ⟨enrollment, node, key, code, processEpoch, now + codeLifetime, .pending⟩)
  | .redeem enrollment key code processEpoch now _ => do
    match ← l.redeem enrollment key code processEpoch now with
    -- the expiry is committed, and the call raises after it
    | (none, l) => return (.raised .enrollmentUnavailable, l)
    | (some claim, l) => return (.claimed claim, l)
  | .activate claim serial notAfter _ => do
    if ¬validExpiry notAfter then throw .invalidExpiry
    return (.done, ← l.activate claim serial notAfter)
  | .revoke authorized node _ => do
    if ¬authorized then throw .denied
    return (.done, ← l.revoke node)
  | .stageRenewal request _ => do
    let (renewal, l) ← l.stageRenewal request
    return (.staged renewal, l)
  | .promote call _ =>
    match promotions call with
    | none => .ok (.pending, l)
    | some p => do
      let (result, l) ← l.promoteRenewal p.node p.key p.serial
      return (.admitted p.node p.key p.serial result, l)
  | .admits _ _ _ _ _ => .ok (.pending, l)

def step (i : Input) (s : State) : Output × State :=
  match i with
  | .admits call node key serial fails =>
    if fails then (⟨.raised .storage, false⟩, s)
    else match s.ledger.admits node key serial with
    | some result => (⟨.admitted node key serial result, false⟩, s)
    | none => (⟨.pending, false⟩, { s with promotions := Function.update s.promotions call (some ⟨node, key, serial⟩) })
  | .promote call ending =>
    let r := transact s.ledger ending (i.body s.ledger s.promotions)
    (r.1, ⟨r.2, Function.update s.promotions call none⟩)
  | .approve _ _ _ _ _ _ _ ending | .redeem _ _ _ _ _ ending | .activate _ _ _ ending | .revoke _ _ ending
  | .stageRenewal _ ending =>
    let r := transact s.ledger ending (i.body s.ledger s.promotions)
    (r.1, { s with ledger := r.2 })

/-- A step of a run. -/
abbrev PairingEvent := Event State Input Output

end Sentinel.Pairing
