import Sentinel.Lib.Table

/-!
# Refused attempts of a source

The refused-attempt staircase of `server/app/cameras/remote_agent/continuity.py` and the functions of `ContinuityTracker` that
read or change it. Of the state of a source only what they read is kept. Times are nanoseconds of the capture clock.
-/

namespace Sentinel.Continuity

def maximumCounter : Nat := 2 ^ 63 - 1

def maximumAttemptSteps : Nat := 8

/-- Python's order on pairs. -/
def pairLe (a b : Nat × Nat) : Bool := a.1 < b.1 || (a.1 == b.1 && decide (a.2 ≤ b.2))

/-- The steps that a new attempt leaves, with it, in order. -/
def insertAttempt (steps : List (Nat × Nat)) (sequence at' : Nat) : List (Nat × Nat) :=
  ((steps.filter fun s => !(decide (s.1 ≤ sequence) && decide (s.2 ≤ at'))) ++ [(sequence, at')]).insertionSort
    fun a b => pairLe a b

/-- `_record_attempt`: add a refused `(sequence, capture time)` to a bounded staircase. -/
def recordAttempt (steps : List (Nat × Nat)) (sequence at' : Nat) : List (Nat × Nat) :=
  if steps.any fun s => decide (sequence ≤ s.1) && decide (at' ≤ s.2) then steps
  else
    let kept := insertAttempt steps sequence at'
    if maximumAttemptSteps < kept.length then
      match kept with
      | (_, later) :: (higher, _) :: rest => (higher, later) :: rest
      | _ => kept
    else kept

/-- Why captured frames are missing. -/
inductive GapReason
  | sequenceSkip
  | captureRestart
  | captureClockRegression
  | ingestRefused
  | coalesced
  deriving DecidableEq, Repr

/-- `MediaUnitHeader`, with the check of its `__post_init__`. -/
structure MediaUnitHeader where
  sourceId : UUID
  captureEpoch : Nat
  sequence : Nat
  captureTimeNs : Nat
  bounded : captureEpoch ≤ maximumCounter ∧ sequence ≤ maximumCounter ∧ captureTimeNs ≤ maximumCounter

/-- `CommittedWatermark`, with the check of its `__post_init__`. -/
structure CommittedWatermark where
  nodeId : UUID
  captureEpoch : Nat
  sequence : Nat
  captureTimeNs : Nat
  bounded : captureEpoch ≤ maximumCounter ∧ sequence ≤ maximumCounter ∧ captureTimeNs ≤ maximumCounter

/-- A gap, as it is recorded. -/
structure GapEvent where
  nodeId : UUID
  sourceId : UUID
  reason : GapReason
  captureEpoch : Nat
  afterSequence : Option Nat
  beforeSequence : Nat
  missingUnits : Option Nat
  deriving DecidableEq, Repr

/-- What the ledger keeps of a source. -/
structure Source where
  captureEpoch : Nat
  lastSequence : Option Nat
  lastCaptureTimeNs : Nat
  attemptedEpoch : Nat := 0
  attempts : List (Nat × Nat) := []
  notedEpoch : Nat := 0
  notedBefore : Option Nat := none
  deriving DecidableEq, Repr

namespace Source

/-- `attempted_time_ns`. -/
def attemptedTimeNs (state : Source) : Option Nat := state.attempts.head?.map Prod.snd

/-- `_clock_regression`: an in-epoch capture clock regression against what was seen. -/
def clockRegression (nodeId : UUID) (state : Source) (header : MediaUnitHeader) : List GapEvent :=
  let committed := state.lastSequence.isSome && state.captureEpoch == header.captureEpoch
  let baseline := (if committed then [state.lastCaptureTimeNs] else []) ++
    (if state.attemptedEpoch = header.captureEpoch then state.attemptedTimeNs.toList else [])
  match baseline.max? with
  | none => []
  | some latest =>
    if latest ≤ header.captureTimeNs then []
    else
      [{ nodeId := nodeId, sourceId := header.sourceId, reason := .captureClockRegression
         captureEpoch := header.captureEpoch
         afterSequence := if committed then state.lastSequence else none
         beforeSequence := header.sequence, missingUnits := some 0 }]

/-- Why `_discontinuities` returns no gaps. -/
inductive Refusal
  | staleCaptureEpoch
  | duplicate
  deriving DecidableEq, Repr

/-- A gap of skipped sequences before a unit. -/
def sequenceSkip (nodeId : UUID) (header : MediaUnitHeader) (after : Option Nat) (missing : Nat) : GapEvent where
  nodeId := nodeId
  sourceId := header.sourceId
  reason := .sequenceSkip
  captureEpoch := header.captureEpoch
  afterSequence := after
  beforeSequence := header.sequence
  missingUnits := some missing

/-- The loss already reported before a unit of this epoch, when it still matters. -/
def noted (state : Source) (epoch : Nat) : Option Nat :=
  state.notedBefore.filter fun before =>
    epoch == state.notedEpoch && (decide (state.captureEpoch < epoch) || state.lastSequence.all (· < before))

/-- `_discontinuities`: the gaps that a unit shows, or why it is refused. -/
def discontinuities (nodeId : UUID) : Option Source → MediaUnitHeader → Except Refusal (List GapEvent)
  | none, header => .ok (if header.sequence = 0 then [] else [sequenceSkip nodeId header none header.sequence])
  | some state, header =>
    if header.captureEpoch < max state.captureEpoch state.attemptedEpoch then .error .staleCaptureEpoch
    else match noted state header.captureEpoch with
      | some before =>
        if header.captureEpoch = state.captureEpoch ∧ state.lastSequence.any (header.sequence ≤ ·) then .error .duplicate
        else if header.sequence < before then .error .duplicate
        else
          .ok ((if before < header.sequence then
              [sequenceSkip nodeId header (if before = 0 then none else some (before - 1)) (header.sequence - before)]
            else []) ++ clockRegression nodeId state header)
      | none =>
        if state.captureEpoch < header.captureEpoch then
          .ok ({ nodeId := nodeId, sourceId := header.sourceId, reason := .captureRestart, captureEpoch := header.captureEpoch
                 afterSequence := none, beforeSequence := header.sequence, missingUnits := none } ::
            clockRegression nodeId state header)
        else match state.lastSequence with
          | none =>
            .ok ((if header.sequence = 0 then [] else [sequenceSkip nodeId header none header.sequence]) ++
              clockRegression nodeId state header)
          | some last =>
            if header.sequence ≤ last then .error .duplicate
            else
              .ok ((if last + 1 < header.sequence then
                  [sequenceSkip nodeId header (some last) (header.sequence - last - 1)]
                else []) ++ clockRegression nodeId state header)

/-- `_attempted`: remember the epoch and capture time of a refused, uncommitted unit. -/
def attempted (state : Source) (header : MediaUnitHeader) : Source :=
  if header.captureEpoch < state.attemptedEpoch then state
  else
    let kept := if header.captureEpoch = state.attemptedEpoch then state.attempts else []
    { state with
      attempts := recordAttempt kept header.sequence header.captureTimeNs
      attemptedEpoch := header.captureEpoch }

/-- `_attempts_beyond`: the refused attempts a resolved watermark does not supersede. -/
def attemptsBeyond (mark : Option CommittedWatermark) (attempted : Source) : List (Nat × Nat) :=
  match mark with
  | none => attempted.attempts
  | some mark =>
    if mark.captureEpoch ≠ attempted.attemptedEpoch then attempted.attempts
    else attempted.attempts.filter fun s => decide (mark.sequence < s.1) && decide (mark.captureTimeNs < s.2)

/-- `_resolved` for a source with refused attempts: its continuity after the lookup of the durable watermark, at a unit. -/
def resolved (mark : Option CommittedWatermark) (attempted : Source) (header : MediaUnitHeader) : Source :=
  let state : Source :=
    match mark with
    | some mark => { captureEpoch := mark.captureEpoch, lastSequence := some mark.sequence, lastCaptureTimeNs := mark.captureTimeNs }
    | none => { captureEpoch := attempted.attemptedEpoch, lastSequence := none, lastCaptureTimeNs := header.captureTimeNs }
  if state.captureEpoch ≤ attempted.attemptedEpoch then
    { state with attemptedEpoch := attempted.attemptedEpoch, attempts := attemptsBeyond mark attempted }
  else state

end Source

/-! ## What the staircase stands for -/

/-- The staircase of a list of attempts, in their order. -/
def staircase (attempts : List (Nat × Nat)) : List (Nat × Nat) :=
  attempts.foldl (fun steps a => recordAttempt steps a.1 a.2) []

/-- The latest time after a sequence. -/
def latestAfter (sequence : Nat) (steps : List (Nat × Nat)) : WithBot Nat :=
  ((steps.filter fun s => sequence < s.1).map Prod.snd).maximum

/-- Recording an attempt merges two steps. -/
def Merges (steps : List (Nat × Nat)) (a : Nat × Nat) : Prop :=
  (∀ s ∈ steps, ¬(a.1 ≤ s.1 ∧ a.2 ≤ s.2)) ∧ maximumAttemptSteps < (insertAttempt steps a.1 a.2).length

end Sentinel.Continuity
