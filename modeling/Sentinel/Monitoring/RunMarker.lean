import Sentinel.Lib.History

/-!
# The running marker

`server/app/monitoring/runtime.py` (`_mark_running`, `_clear_run_marker`) with `RunMarkerStore` of
`server/app/monitoring/store.py`: processes that run one after the other over one database. An attempt to mark is taken
apart at its durable writes; between any two of them the process may die, and every write may be refused. Tokens are the
numbers of the processes, an event identifier is the token it is named after, and time is counted in microseconds.
-/

namespace Sentinel.Monitoring.RunMarker

/-- `UNCLEAN_EXIT_HOURLY_LIMIT`. -/
def hourlyLimit : Nat := 4

/-- `UNCLEAN_EXIT_WINDOW_SECONDS`. -/
def hour : Nat := 3600 * 1000000

/-- `UNCLEAN_EXIT_KEEP_SECONDS`. -/
def keep : Nat := 24 * hour

/-- A row of `monitoring_unclean_exit_notices`. -/
structure Notice where
  token : Nat
  time : Nat
  deriving DecidableEq

/-- The tables of the marker. -/
structure Db where
  /-- `monitoring_run_marker`. -/
  marker : Option Nat := none
  notices : List Notice := []
  /-- The tokens that a row of `notification_events` is named after. -/
  events : List Nat := []

namespace Db

variable (db : Db)

def noticeTime (token : Nat) : Option Nat := (db.notices.find? fun notice => notice.token = token).map Notice.time

def noticesWithin (now window : Nat) : Nat :=
  db.notices.countP fun notice => now - notice.time < window ∧ notice.time - now < window

/-- The first write of `take_notice`. -/
def prune (time : Nat) : Db :=
  { db with notices := db.notices.filter fun notice => ¬(notice.time + keep < time ∨ time + keep < notice.time) }

/-- The second write of `take_notice`; a row of the token is kept. -/
def insert (token time : Nat) : Db :=
  if db.notices.any fun notice => notice.token = token then db
  else { db with notices := db.notices ++ [⟨token, time⟩] }

def clear (token : Nat) : Db := if db.marker = some token then { db with marker := none } else db

end Db

/-- Where the process is in `_mark_running`. -/
inductive Point
  | rest
  /-- Before the first write of `take_notice` for the previous run. -/
  | pruning (previous : Nat)
  | inserting (previous time : Nat)
  | recording (previous : Nat)
  | marking
  deriving DecidableEq

/-- A process and where its attempt stands. -/
structure Process where
  token : Nat
  marked : Bool := false
  dropped : Bool := false
  point : Point := .rest

/-- The database, the process that runs, how many were started, and the wall clock. -/
structure State where
  db : Db := {}
  process : Option Process := none
  started : Nat := 0
  clock : Nat := 0

/-- What can happen. -/
inductive Input
  | wait (time : Nat)
  /-- A process starts after the last one has ended. -/
  | start
  /-- An attempt begins; the queue of notifications may be full. -/
  | attempt (full : Bool)
  | prune (commits : Bool)
  | insert (commits : Bool)
  /-- The notification is recorded; its row may be refused. -/
  | record (persisted : Bool)
  | mark (commits : Bool)
  /-- The graceful stop; the marker may not be deleted. -/
  | stop (commits : Bool)
  | crash
  /-- A row of `notification_events` expires. -/
  | expire (token : Nat)

/-- What a step does that counts. -/
inductive Output
  | marked (token : Nat)
  | cleared (token : Nat)
  /-- The process found the hour full and counts the exit of the previous run as dropped. -/
  | dropped (token previous found : Nat)
  | slot (token time : Nat)
  | none
  deriving DecidableEq

/-- `_mark_running` up to its first durable write. -/
def attempt (db : Db) (clock : Nat) (full : Bool) (p : Process) : Output × Process :=
  if p.marked then (.none, p)
  else
    match db.marker with
    | none => (.none, { p with point := .marking })
    | some previous =>
      if previous = p.token ∨ previous ∈ db.events then (.none, { p with point := .marking })
      else
        let taken := db.noticeTime previous
        let found := db.noticesWithin clock hour
        let drops := taken.isNone && !p.dropped && decide (hourlyLimit ≤ found)
        let output := if drops then Output.dropped p.token previous found else .none
        let p := { p with dropped := p.dropped || drops }
        if p.dropped then (output, { p with point := .marking })
        else if full then (output, p)
        else if taken.isSome then (output, { p with point := .recording previous })
        else (output, { p with point := .pruning previous })

def step : Input → State → Output × State
  | .wait time, s => (.none, { s with clock := s.clock + time })
  | .start, s =>
    match s.process with
    | none => (.none, { s with process := some { token := s.started }, started := s.started + 1 })
    | some _ => (.none, s)
  | .attempt full, s =>
    match s.process with
    | some p =>
      match p.point with
      | .rest =>
        let (output, p) := attempt s.db s.clock full p
        (output, { s with process := some p })
      | _ => (.none, s)
    | none => (.none, s)
  | .prune commits, s =>
    match s.process with
    | some p =>
      match p.point with
      | .pruning previous =>
        if commits then
          (.none, { s with db := s.db.prune s.clock, process := some { p with point := .inserting previous s.clock } })
        else (.none, { s with process := some { p with point := .rest } })
      | _ => (.none, s)
    | none => (.none, s)
  | .insert commits, s =>
    match s.process with
    | some p =>
      match p.point with
      | .inserting previous time =>
        if commits then
          (if s.db.notices.any fun notice => notice.token = previous then .none else .slot previous time,
            { s with db := s.db.insert previous time, process := some { p with point := .recording previous } })
        else (.none, { s with process := some { p with point := .rest } })
      | _ => (.none, s)
    | none => (.none, s)
  | .record persisted, s =>
    match s.process with
    | some p =>
      match p.point with
      | .recording previous =>
        let db := if persisted then { s.db with events := previous :: s.db.events } else s.db
        (.none, { s with db, process := some { p with point := if previous ∈ db.events then .marking else .rest } })
      | _ => (.none, s)
    | none => (.none, s)
  | .mark commits, s =>
    match s.process with
    | some p =>
      match p.point with
      | .marking =>
        if commits then
          (.marked p.token,
            { s with db := { s.db with marker := some p.token }, process := some { p with marked := true, point := .rest } })
        else (.none, { s with process := some { p with point := .rest } })
      | _ => (.none, s)
    | none => (.none, s)
  | .stop commits, s =>
    match s.process with
    | some p =>
      match p.point with
      | .rest =>
        if commits && p.marked then
          (if s.db.marker = some p.token then .cleared p.token else .none,
            { s with db := s.db.clear p.token, process := none })
        else (.none, { s with process := none })
      | _ => (.none, s)
    | none => (.none, s)
  | .crash, s => (.none, { s with process := none })
  | .expire token, s => (.none, { s with db := { s.db with events := s.db.events.filter (· ≠ token) } })

/-- A row of `notification_events` is named after the token at the event. -/
def notified (token : Nat) (e : Event State Input Output) : Prop :=
  token ∈ e.before.db.events ∨ token ∈ e.after.db.events

/-- The event takes a slot for the token. -/
def takes (token : Nat) (e : Event State Input Output) : Bool :=
  match e.output with
  | .slot t _ => t = token
  | _ => false

/-- The event takes a slot within the hour from the time. -/
def takesWithin (from_ : Nat) (e : Event State Input Output) : Bool :=
  match e.output with
  | .slot _ time => from_ ≤ time ∧ time < from_ + hour
  | _ => false

end Sentinel.Monitoring.RunMarker
