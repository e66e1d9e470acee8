import Mathlib.Data.List.Sort
import Mathlib.Algebra.Order.Field.Rat
import Sentinel.Detection.Contracts

/-!
# Template comparison

`server/app/detection/roi/geometry.py`: rigid transforms by whole pixels and quarter turns, and the best of them between
a reference and a frame. A centre may lie between two pixels, so centres are given twice as large; fractions are exact,
where the source computes with floating-point numbers.
-/

namespace Sentinel.Detection

/-- A point of an image. -/
abbrev Point := Int × Int

/-- `Transform`. -/
structure Transform where
  dx : Int := 0
  dy : Int := 0
  quarterTurns : Nat := 0
  deriving DecidableEq, Repr

/-- `rotated`: the quarter turns from the identity, in the shorter direction. -/
def Transform.rotated (t : Transform) : Nat := min (t.quarterTurns % 4) ((4 - t.quarterTurns % 4) % 4)

/-- The transform moves by at least a number of pixels. -/
def Transform.reaches (t : Transform) (pixels : Nat) : Bool :=
  decide ((pixels : Int) ^ 2 ≤ t.dx ^ 2 + t.dy ^ 2) || decide (0 < t.rotated)

/-- `cross`. -/
def cross (a b c : Point) : Int := (b.1 - a.1) * (c.2 - a.2) - (b.2 - a.2) * (c.1 - a.1)

/-- `on_segment`. -/
def onSegment (a b p : Point) : Bool :=
  decide (cross a b p = 0) && decide (min a.1 b.1 ≤ p.1 ∧ p.1 ≤ max a.1 b.1) &&
    decide (min a.2 b.2 ≤ p.2 ∧ p.2 ≤ max a.2 b.2)

/-- The edges of a polygon. -/
def edges (points : List Point) : List (Point × Point) := points.zip (points.rotate 1)

/-- The loop of `contains` over the remaining edges. -/
def containsFrom (p : Point) (inside : Bool) : List (Point × Point) → Bool
  | [] => inside
  | (a, b) :: rest =>
    if onSegment a b p then true
    else
      let crosses := decide (p.2 < a.2) != decide (p.2 < b.2)
      let left := decide ((p.1 : ℚ) < (b.1 - a.1) * (p.2 - a.2) / (b.2 - a.2) + a.1)
      containsFrom p (if crosses && left then !inside else inside) rest

/-- `contains`. -/
def contains (points : List Point) (p : Point) : Bool := containsFrom p false (edges points)

/-- `round` of half a number: to the nearest integer, and to the even one of two that are as near. -/
def roundHalf (n : Int) : Int :=
  if n % 2 = 0 then n / 2 else if n / 2 % 2 = 0 then n / 2 else n / 2 + 1

/-- A number of quarter turns about the origin. -/
def turn : Nat → Point → Point
  | 0, p => p
  | n + 1, p => turn n (-p.2, p.1)

/-- `apply`; the centre is given twice as large. -/
def applyTransform (p : Point) (t : Transform) (center : Point) : Point :=
  let q := turn t.quarterTurns (2 * p.1 - center.1, 2 * p.2 - center.2)
  (roundHalf (q.1 + center.1 + 2 * t.dx), roundHalf (q.2 + center.2 + 2 * t.dy))

/-- The integers from `-radius` to `radius`. -/
def within (radius : Nat) : List Int := (List.range (2 * radius + 1)).map fun (i : Nat) => (i : Int) - radius

/-- `candidates`. -/
def candidates (radius : Nat) (angles : List Nat) : List Transform :=
  angles.flatMap fun angle => (within radius).flatMap fun dy => (within radius).map fun dx => ⟨dx, dy, angle⟩

/-- `dissimilarity`. -/
def dissimilarity (reference current : GrayFrame) (points : List Point) : ℚ :=
  if points = [] then 0
  else ((points.map fun p => |reference.pixel p.1 p.2 - current.pixel p.1 p.2|).sum : Int) / (255 * points.length)

/-- `Match`; there is no margin where no other candidate was ranked. -/
structure Match where
  transform : Transform
  error : ℚ
  margin : Option ℚ
  coverage : ℚ

/-- The point lies in the frame. -/
def GrayFrame.inside (f : GrayFrame) (p : Point) : Bool :=
  decide (0 ≤ p.1 ∧ p.1 < f.width) && decide (0 ≤ p.2 ∧ p.2 < f.height)

/-- One candidate of `match`: its error and its coverage. -/
def rank (reference current : GrayFrame) (points : List Point) (center : Point) (minimumCoverage : ℚ)
    (outer : Option (Transform × Point)) (t : Transform) : Option (ℚ × Transform × ℚ) :=
  let pairs := points.map fun p =>
    let destination := applyTransform p t center
    (p, outer.elim destination fun o => applyTransform destination o.1 o.2)
  let hits := pairs.filter fun q => current.inside q.2
  let difference := (hits.map fun q => |reference.pixel q.1.1 q.1.2 - current.pixel q.2.1 q.2.2|).sum
  let coverage : ℚ := hits.length / points.length
  if minimumCoverage ≤ coverage then some (difference / (255 * hits.length), t, coverage) else none

/-- `match`. -/
def templateMatch (reference current : GrayFrame) (points : List Point) (transforms : List Transform) (center : Point)
    (minimumCoverage : ℚ) (outer : Option (Transform × Point) := none) : Option Match :=
  let ranked := (transforms.filterMap (rank reference current points center minimumCoverage outer)).insertionSort
    fun a b => a.1 ≤ b.1
  match ranked with
  | [] => none
  | (error, transform, coverage) :: rest => some ⟨transform, error, rest.head?.map fun r => r.1 - error, coverage⟩

end Sentinel.Detection
