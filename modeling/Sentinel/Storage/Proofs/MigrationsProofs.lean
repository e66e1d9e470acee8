import Sentinel.Storage.Migrations

/-!
# The recorded history is what was executed

A startup that commits extends the history to its own list of migrations, and executes what the list has beyond it. All others
leave the database. So the history only grows, and the statements executed are those of the migrations it records.
-/

namespace Sentinel.Storage

variable {δ : Type} {checksum : Migration → δ} {raises : List String → String → Bool}

theorem execute_some {statements executed executed' : List String} (h : execute raises executed statements = some executed') :
    executed' = executed ++ statements := by
  induction statements generalizing executed with
  | nil => simpa [execute] using h.symm
  | cons statement rest ih =>
    rw [execute] at h
    split at h
    · cases h
    · simpa using ih h

theorem applyPending_some {pending : List Migration} {db db' : Db δ} (h : applyPending checksum raises db pending = some db') :
    db' = ⟨db.history ++ pending.map (row checksum), db.executed ++ pending.flatMap Migration.statements⟩ := by
  induction pending generalizing db with
  | nil => simpa [applyPending] using h.symm
  | cons m rest ih =>
    rw [applyPending] at h
    split at h
    · cases h
    · rename_i executed hexecuted
      rw [ih h, execute_some hexecuted]
      simp

/-- What a startup does. -/
structure Migrated (checksum : Migration → δ) (s : Startup) (db : Db δ) (next : Except MigrationError Unit × Db δ) : Prop where
  extended : ∃ pending : List Migration, next.2.history = db.history ++ pending.map (row checksum) ∧
    next.2.executed = db.executed ++ pending.flatMap Migration.statements
  complete : next.1 = .ok () → next.2.history = s.migrations.map (row checksum)
  kept : next.1 ≠ .ok () → s.ending ≠ .unknown → next.2 = db

theorem Migrated.refused (s : Startup) (db : Db δ) (error : MigrationError) : Migrated checksum s db (.error error, db) := by
  refine ⟨⟨[], by simp, by simp⟩, ?_, fun _ _ => rfl⟩
  intro hok
  cases hok

variable [DecidableEq δ]

theorem migrate_migrated (checksum : Migration → δ) (s : Startup) (db : Db δ) : Migrated checksum s db (migrate checksum s db) := by
  unfold migrate
  split
  · exact .refused s db _
  split
  · exact .refused s db _
  split
  · exact .refused s db _
  split
  · exact .refused s db _
  split
  · exact .refused s db _
  rename_i hending _ hhistory
  have hall : db.history ++ (s.migrations.drop db.history.length).map (row checksum) = s.migrations.map (row checksum) := by
    rw [← List.take_append_drop db.history.length (s.migrations.map _), List.map_drop, ← List.map_take, ← not_not.1 hhistory]
  split
  · exact .refused s db _
  · rename_i happly
    rw [applyPending_some happly]
    refine ⟨⟨_, rfl, rfl⟩, fun _ => hall, ?_⟩
    intro hfailed hknown
    cases hs : s.ending with
    | committed => exact absurd (if_pos hs) hfailed
    | rolledBack => exact absurd hs hending
    | unknown => exact absurd hs hknown

variable {h : List (Event (Db δ) Startup (Except MigrationError Unit))} {db : Db δ}

theorem exists_applied (hs : Reaches (migrate checksum) {} h db) :
    ∃ applied : List Migration, db.history = applied.map (row checksum) ∧ db.executed = applied.flatMap Migration.statements := by
  induction hs with
  | start => exact ⟨[], rfl, rfl⟩
  | @next h db hs s ih =>
    obtain ⟨applied, hhistory, hexecuted⟩ := ih
    obtain ⟨pending, hrows, hstatements⟩ := (migrate_migrated checksum s db).extended
    refine ⟨applied ++ pending, ?_, ?_⟩
    · rw [hrows, hhistory, List.map_append]
    · rw [hstatements, hexecuted, List.flatMap_append]

/-- The list of a startup that succeeded stays at the beginning of the history. -/
theorem prefix_of_ok (hs : Reaches (migrate checksum) {} h db) :
    ∀ e ∈ h, e.output = .ok () → e.input.migrations.map (row checksum) <+: db.history := by
  induction hs with
  | start => exact fun e he => absurd he List.not_mem_nil
  | @next h db hs s ih =>
    intro e he hok
    have hstep := migrate_migrated checksum s db
    rcases List.mem_cons.1 he with rfl | he
    · exact (hstep.complete hok) ▸ List.prefix_rfl
    · obtain ⟨pending, hrows, -⟩ := hstep.extended
      exact (ih e he hok).trans ⟨_, hrows.symm⟩

/-- Over every sequence of startups on one database, with any lists of migrations, refusals and failures: what was executed are the
statements of the migrations that the history records, each once and in order. A startup that fails leaves the database, unless
its commit came through. One that succeeds leaves the history of its whole list, so the lists of later successes only extend it. -/
theorem history_is_what_was_executed (checksum : Migration → δ) (inputs : List Startup) :
    let run := perform (migrate checksum) {} inputs
    (∃ applied : List Migration, run.2.history = applied.map (row checksum) ∧
      run.2.executed = applied.flatMap Migration.statements) ∧
    (∀ e ∈ run.1, e.output = .ok () → e.after.history = e.input.migrations.map (row checksum) ∧
      (Function.Injective checksum → e.after.executed = e.input.migrations.flatMap Migration.statements)) ∧
    (∀ e ∈ run.1, e.output ≠ .ok () → e.input.ending ≠ .unknown → e.after = e.before) ∧
    run.1.Pairwise fun e e' => e.output = .ok () → e'.output = .ok () →
      e'.input.migrations.map (row checksum) <+: e.input.migrations.map (row checksum) := by
  intro run
  have hs : Reaches (migrate checksum) {} run.1 run.2 := .perform _ _ _
  clear_value run
  obtain ⟨h, db⟩ := run
  refine ⟨exists_applied hs, ?_⟩
  dsimp only at hs ⊢
  induction hs with
  | start => exact ⟨fun e he => absurd he List.not_mem_nil, fun e he => absurd he List.not_mem_nil, .nil⟩
  | @next h db hs s ih =>
    have hstep := migrate_migrated checksum s db
    simp only [List.forall_mem_cons, List.pairwise_cons]
    refine ⟨⟨fun hok => ⟨hstep.complete hok, fun hinj => ?_⟩, ih.1⟩, ⟨hstep.kept, ih.2.1⟩, ?_, ih.2.2⟩
    · obtain ⟨applied, hrows, hexecuted⟩ := exists_applied (hs.next s)
      have hrow : Function.Injective (row checksum) := fun m m' hm => hinj (congrArg Row.checksum hm)
      rwa [List.map_injective_iff.2 hrow (hrows.symm.trans (hstep.complete hok))] at hexecuted
    · intro e he hok hok'
      exact (hstep.complete hok) ▸ prefix_of_ok (hs.next s) e (List.mem_cons_of_mem _ he) hok'

end Sentinel.Storage
