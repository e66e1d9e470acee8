import Sentinel.Detection.Geometry
import Sentinel.Lib.Segments

/-!
# Region-of-interest polygons

`validate_polygon` of `server/app/detection/roi/geometry.py` and, above it, what a simple polygon is.
-/

namespace Sentinel.Detection.Polygon

def area (points : List Point) : Int := ((edges points).map fun e => e.1.1 * e.2.2 - e.2.1 * e.1.2).sum

/-- The test of two edges. -/
def intersects (a b c d : Point) : Bool :=
  let proper := decide (cross a b c * cross a b d < 0) && decide (cross c d a * cross c d b < 0)
  let touching := onSegment a b c || onSegment a b d || onSegment c d a || onSegment c d b
  proper || touching

/-- The pairs of edges that the loops pass over. -/
def passesOver (n i j : Nat) : Bool := decide (j ≤ i) || j == i + 1 || (i == 0 && j == n - 1)

def validatePolygon (points : List Point) : Except String Unit :=
  if points.dedup.length ≠ points.length then .error "polygon has duplicate vertices"
  else if area points = 0 then .error "polygon has no area"
  else
    let edges := edges points
    if edges.zipIdx.any fun (e, i) => edges.zipIdx.any fun (f, j) =>
        !passesOver edges.length i j && intersects e.1 e.2 f.1 f.2 then
      .error "polygon must not intersect itself"
    else .ok ()

/-! ## Simple polygons -/

/-- A vertex by its number, around the polygon. -/
def vertex (points : List Point) (i : Nat) : Point := points.getD (i % points.length) (0, 0)

/-- A point in the real plane. -/
def toPlane (p : Point) : ℝ × ℝ := (p.1, p.2)

/-- An edge as a closed segment of the real plane. -/
def edge (points : List Point) (i : Nat) : Set (ℝ × ℝ) :=
  segment ℝ (toPlane (vertex points i)) (toPlane (vertex points (i + 1)))

noncomputable def signedArea (points : List Point) : ℝ :=
  (∑ i ∈ Finset.range points.length,
    ((toPlane (vertex points i)).1 * (toPlane (vertex points (i + 1))).2 -
      (toPlane (vertex points (i + 1))).1 * (toPlane (vertex points i)).2)) / (2 : Nat)

/-- Edges that follow each other around the polygon. -/
def Adjacent (n i j : Nat) : Prop := j = (i + 1) % n ∨ i = (j + 1) % n

/-- The vertices bound a simple polygon. -/
structure Simple (points : List Point) : Prop where
  distinct : points.Nodup
  area : signedArea points ≠ 0
  apart : ∀ i < points.length, ∀ j < points.length, i ≠ j → ¬Adjacent points.length i j → Disjoint (edge points i) (edge points j)
  joined : ∀ i < points.length, edge points i ∩ edge points (i + 1) = {toPlane (vertex points (i + 1))}

end Sentinel.Detection.Polygon
