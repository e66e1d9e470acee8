import Sentinel.Lib.History
import Sentinel.Lib.Table

/-!
# Schema migrations

`migrate` of `server/app/storage/migrations.py`, once at every startup. A database is the rows of `schema_migrations` and the
statements that were executed on it; which statements it refuses is its own affair. Any other exception ends the process, and the
transaction with it.
-/

namespace Sentinel.Storage

/-- A migration of the schema. -/
structure Migration where
  version : Nat
  name : List Char
  statements : List String
  deriving DecidableEq

variable {δ : Type} [DecidableEq δ] (checksum : Migration → δ)

/-- A row of `schema_migrations`. -/
structure Row (δ : Type) where
  version : Nat
  name : List Char
  checksum : δ
  deriving DecidableEq

/-- The history of migrations and the statements that ran. -/
structure Db (δ : Type) where
  history : List (Row δ) := []
  executed : List String := []

/-- Why `migrate` fails. -/
inductive MigrationError
  | invalidSequence
  | notIdle
  | newerSchema
  | historyMismatch
  | failed

def row (m : Migration) : Row δ := ⟨m.version, m.name, checksum m⟩

/-- `[a-z][a-z0-9_]{0,63}`. -/
def validName : List Char → Bool
  | [] => false
  | c :: rest => c.isLower && rest.all (fun c => c.isLower || c.isDigit || c == '_') && rest.length ≤ 63

/-- The checks of the sequence, from the expected version on. -/
def validSequence : Nat → List Migration → Bool
  | _, [] => true
  | expected, m :: rest =>
    m.version == expected && validName m.name && !m.statements.isEmpty && validSequence (expected + 1) rest

/-- What the environment decides at a startup. -/
structure Startup where
  migrations : List Migration
  idle : Bool
  /-- The statement raises, after those that were executed. -/
  raises : List String → String → Bool
  ending : Ending

def execute (raises : List String → String → Bool) : List String → List String → Option (List String)
  | executed, [] => some executed
  | executed, statement :: rest =>
    if raises executed statement then none else execute raises (executed ++ [statement]) rest

def applyPending (raises : List String → String → Bool) : Db δ → List Migration → Option (Db δ)
  | db, [] => some db
  | db, m :: rest =>
    match execute raises db.executed m.statements with
    | none => none
    | some executed => applyPending raises ⟨db.history ++ [row checksum m], executed⟩ rest

def migrate (s : Startup) (db : Db δ) : Except MigrationError Unit × Db δ :=
  if validSequence 1 s.migrations = false then (.error .invalidSequence, db)
  else if s.idle = false then (.error .notIdle, db)
  else if s.ending = .rolledBack then (.error .failed, db)
  else if s.migrations.length < db.history.length then (.error .newerSchema, db)
  else if db.history ≠ (s.migrations.take db.history.length).map (row checksum) then (.error .historyMismatch, db)
  else
    match applyPending checksum s.raises db (s.migrations.drop db.history.length) with
    | none => (.error .failed, db)
    | some db => (if s.ending = .committed then .ok () else .error .failed, db)

end Sentinel.Storage
