import Sentinel.Ring.Effects

/-!
# Histories of the ledger

A run of the ring is, for the ledger, one sequence of permitted changes from the empty tables: crashes
and failures only end a call between two of them. `Chain` is such a sequence, each change with the
context of the call that made it; `entries` reads it off a history of calls.
-/

namespace Sentinel.Ring

/-- A history of calls, the latest first. -/
abbrev History := List (Event Sys (Call × Env) Output)

/-- The context of a call of a history. -/
def contextOf (e : Event Sys (Call × Env) Output) : Ctx := e.input.1.ctx e.before.ledger

/-- The durable changes of a history, the latest first, with the contexts of their calls. -/
def entries (h : History) : List (Ctx × Entry) :=
  h.flatMap fun e => e.output.log.map fun entry => (contextOf e, entry)

/-- Permitted changes that lead from the empty ledger to `l`. -/
inductive Chain (s : Settings) : List (Ctx × Entry) → Ledger → Prop
  | nil : Chain s [] {}
  | cons {log : List (Ctx × Entry)} {l : Ledger} {action : Action} (c : Ctx) (media : Media)
      (earlier : Chain s log l) (permitted : Permitted s c l action) :
      Chain s ((c, ⟨action, l, media⟩) :: log) (l.apply action)

/-- The ledger is valid, and an open ring uses the recorded configuration. -/
structure Sys.Valid (sys : Sys) : Prop where
  ledger : sys.ledger.Valid
  agrees : ∀ m ∈ sys.memory, m.configuration = sys.ledger.configuration

end Sentinel.Ring
