import Sentinel.Lib.History

/-!
# The storage sample of a tick

`server/app/monitoring/runtime.py` (`_storage_tick`, `_final_storage_sample`, `_close`, `_clear_run_marker`) with the
refusal flag of `IdentifiedRecordingFilesystem` (`server/app/monitoring/filesystem.py`): one process from `RUNNING` to the
end of its graceful stop. A tick is taken apart so that every sample is a step of its own and admissions of other
components fall between any two of them; after the stop has begun only the stop itself takes samples.
-/

namespace Sentinel.Monitoring.StorageTick

/-- Where the owner thread is. -/
inductive Point
  | idle
  /-- `check` has returned or raised; the flag is not taken. -/
  | checked (healthy : Bool)
  | alerting
  /-- The alert of the tick, if there is one, is submitted. -/
  | setting (healthy alerted : Bool)
  | status (alerted : Bool)
  /-- The final sample is taken, and its deliveries are waited for; the marker is next. -/
  | clearing (alerted : Bool)
  | stopped
  deriving DecidableEq

/-- The process and its marker. -/
structure State where
  /-- `_refused` of the filesystem. -/
  refused : Bool := false
  filesystemOk : Bool := true
  runMarked : Bool := false
  /-- The marker of the process is in the database. -/
  marker : Bool := false
  stopping : Bool := false
  point : Point := .idle

/-- What can happen; a sample is refused or succeeds. -/
inductive Input
  | mark
  /-- An admission of a component samples the filesystem. -/
  | admission (refuses : Bool)
  /-- A tick begins with `check`. -/
  | tick (refuses : Bool)
  /-- The final sample of the stop begins with `check`. -/
  | stop (refuses : Bool)
  /-- `take_refusal`. -/
  | take
  | submit
  /-- `_filesystem_ok = healthy`. -/
  | settle
  /-- The status of the policy samples the filesystem. -/
  | status (refuses : Bool)
  | finish
  /-- The marker is deleted, or the write is refused. -/
  | clear (refuses : Bool)
  deriving DecidableEq

/-- What a step does that counts. -/
inductive Output
  /-- A `recording_health_failure` is submitted. -/
  | submitted
  /-- `_filesystem_ok` is set to `True`. -/
  | ended
  | refused
  | none
  deriving DecidableEq

/-- `snapshot`. -/
def sample (refuses : Bool) (s : State) : Output × State :=
  if refuses then (.refused, { s with refused := true }) else (.none, s)

/-- The tick has an alert, and its own admissions follow. -/
def Point.alerts : Point → Bool
  | .alerting => true
  | .setting _ alerted => alerted
  | .status alerted => alerted
  | .clearing alerted => alerted
  | _ => false

def step : Input → State → Output × State
  | .mark, s =>
    match s.point with
    | .idle => if s.stopping then (.none, s) else (.none, { s with runMarked := true, marker := true })
    | _ => (.none, s)
  | .admission refuses, s => if s.stopping && !s.point.alerts then (.none, s) else sample refuses s
  | .tick refuses, s =>
    match s.point with
    | .idle =>
      if s.stopping then (.none, s)
      else
        let (output, s) := sample refuses s
        (output, { s with point := .checked (!refuses) })
    | _ => (.none, s)
  | .stop refuses, s =>
    match s.point with
    | .idle =>
      if s.stopping then (.none, s)
      else
        let (output, s) := sample refuses s
        (output, { s with stopping := true, point := .checked (!refuses) })
    | _ => (.none, s)
  | .take, s =>
    match s.point with
    | .checked healthy =>
      let healthy := if s.refused && s.filesystemOk then false else healthy
      let alerted := !healthy && s.filesystemOk
      (.none, { s with refused := false, point := if alerted then .alerting else .setting healthy false })
    | _ => (.none, s)
  | .submit, s =>
    match s.point with
    | .alerting => (.submitted, { s with point := .setting false true })
    | _ => (.none, s)
  | .settle, s =>
    match s.point with
    | .setting healthy alerted =>
      (if healthy then .ended else .none, { s with filesystemOk := healthy, point := .status alerted })
    | _ => (.none, s)
  | .status refuses, s =>
    match s.point with
    | .status _ => sample refuses s
    | _ => (.none, s)
  | .finish, s =>
    match s.point with
    | .status alerted => (.none, { s with point := if s.stopping then .clearing alerted else .idle })
    | _ => (.none, s)
  | .clear refuses, s =>
    match s.point with
    | .clearing _ =>
      if s.runMarked then
        let (output, s) := sample refuses s
        (output, { s with runMarked := refuses, marker := refuses, point := .stopped })
      else (.none, { s with point := .stopped })
    | _ => (.none, s)

/-- The steps of the history include the submission of an alert, and no later one of them ended its episode. -/
def Open (h : List (Event State Input Output)) : Prop :=
  ∃ mid e rest, h = mid ++ e :: rest ∧ e.output = .submitted ∧ ∀ x ∈ mid, x.output ≠ .ended

/-- The refusal between the two parts of the history reaches the Owner: an alert is submitted after it or was submitted
before it in the same episode, or the marker is left. -/
def Reported (later earlier : List (Event State Input Output)) (s : State) : Prop :=
  (∃ e ∈ later, e.output = .submitted) ∨ Open earlier ∨ s.marker = true

/-- A sample of the status of the policy is refused in the final sample of the stop, which found the filesystem healthy. -/
def finalStatusRefused (e : Event State Input Output) : Bool :=
  e.before.stopping && e.before.filesystemOk && decide (e.input = .status true) && decide (e.output = .refused)

end Sentinel.Monitoring.StorageTick
