import Mathlib.Data.List.DropRight
import Sentinel.Lib.History

/-!
# The not-online time of a camera

`_DownTime` of `server/app/monitoring/cameras.py` in exact arithmetic: the not-online seconds of one source within the ratio
window, in time bins. The bins and the end times are kept the latest first. Times are finite.
-/

namespace Sentinel.Monitoring

/-- `DOWN_BINS`. -/
def downBins : Nat := 128

def binWidth (window : ℚ) : ℚ := window / downBins

/-- The time a source was down, in bins. -/
structure DownTime where
  bins : List (ℤ × ℚ) := []
  /-- The end times of the last two closed periods. -/
  ends : List ℚ := []
  since : Option ℚ
  last : Option ℚ
  deriving DecidableEq

namespace DownTime

def init (start : Option ℚ) : DownTime := { since := start, last := start }

def clear (d : DownTime) : DownTime := { d with bins := [], ends := [] }

/-- `_clock`. -/
def clock (window : ℚ) (d : DownTime) (now : ℚ) : ℚ × DownTime :=
  match d.last with
  | none => (now, { d with last := some now })
  | some last =>
    if now < last then
      if last - now ≤ binWidth window then (last, d)
      else (now, { d.clear with since := d.since.map fun _ => now, last := some now })
    else (now, { d with last := some now })

/-- The time is added to the latest bin, or to a new one. -/
def addBin (index : ℤ) (seconds : ℚ) : List (ℤ × ℚ) → List (ℤ × ℚ)
  | [] => [(index, seconds)]
  | bin :: bins => if bin.1 = index then (bin.1, bin.2 + seconds) :: bins else (index, seconds) :: bin :: bins

/-- The loop of `_add`, for a number of rounds. -/
def addFrom (width stop : ℚ) : Nat → ℚ → ℤ → List (ℤ × ℚ) → List (ℤ × ℚ)
  | 0, _, _, bins => bins
  | rounds + 1, begin, index, bins =>
    if begin < stop then
      let border := min stop ((index + 1) * width)
      addFrom width stop rounds border (index + 1) (if border > begin then addBin index (border - begin) bins else bins)
    else bins

/-- `_add`; the loop runs once for each bin that the time from `begin` to `stop` touches. -/
def add (window : ℚ) (d : DownTime) (begin stop : ℚ) : DownTime :=
  let width := binWidth window
  let index := ⌊begin / width⌋
  { d with bins := addFrom width stop (⌈stop / width⌉ - index).toNat begin index d.bins }

/-- The first bin that `trim` keeps. -/
def firstBin (window now : ℚ) : ℤ := ⌊(now - window) / binWidth window⌋

def trim (window : ℚ) (d : DownTime) (now : ℚ) : DownTime :=
  { d with bins := d.bins.rdropWhile fun bin => bin.1 < firstBin window now }

def start (window : ℚ) (d : DownTime) (now : ℚ) : DownTime :=
  let (now, d) := d.clock window now
  { d with since := some now }

def stop (window : ℚ) (d : DownTime) (now : ℚ) : DownTime :=
  let since := d.since
  let (now, d) := { d with since := none }.clock window now
  match since with
  | none => d
  | some since =>
    if now ≤ since then d
    else
      let d := { d with ends := (now :: d.ends).take 2 }
      (d.add window (max since (now - window - binWidth window)) now).trim window now

/-- The total that `flapping` compares. -/
def total (window : ℚ) (d : DownTime) (now : ℚ) : ℚ :=
  let seconds := (d.bins.map Prod.snd).sum
  match d.since with
  | none => seconds
  | some since => seconds + (now - max since (now - window))

/-- The number of periods that `flapping` compares. -/
def periods (window : ℚ) (d : DownTime) (now : ℚ) : Nat :=
  (d.ends.countP fun stop => stop > now - window) + if d.since.isSome then 1 else 0

def flapping (window : ℚ) (d : DownTime) (now offline : ℚ) : Bool × DownTime :=
  let (now, d) := d.clock window now
  let d := d.trim window now
  (decide (d.periods window now ≥ 2 ∧ d.total window now ≥ offline), d)

end DownTime

/-- The calls of `DownTime`. -/
inductive DownCall
  | start (now : ℚ)
  | stop (now : ℚ)
  | trim (now : ℚ)
  | flapping (now offline : ℚ)
  deriving DecidableEq

def DownCall.now : DownCall → ℚ
  | start now | stop now | trim now | flapping now _ => now

/-- One call; the output is what `flapping` returns. -/
def DownTime.step (window : ℚ) (call : DownCall) (d : DownTime) : Option Bool × DownTime :=
  match call with
  | .start now => (none, d.start window now)
  | .stop now => (none, d.stop window now)
  | .trim now => (none, d.trim window now)
  | .flapping now offline =>
    let (result, d) := d.flapping window now offline
    (some result, d)

end Sentinel.Monitoring
