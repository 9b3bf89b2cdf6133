import Atelier.Checked
import Atelier.Tool

/-!
Footprints: the cells around the cursor that a tool paints, as offsets from the cursor. Every fixed
footprint is a grid of offsets with those outside the figure left out, so it lists each offset once.
-/

namespace Atelier

structure Offset where
  dx : Int
  dy : Int
deriving DecidableEq, Repr

/-- The integers from `lo` to `hi`, both included. -/
def span (lo hi : Int) : List Int :=
  (List.range (hi - lo + 1).toNat).map fun (k : Nat) => lo + k

theorem mem_span_iff {lo hi i : Int} : i ∈ span lo hi ↔ lo ≤ i ∧ i ≤ hi := by
  simp only [span, List.mem_map, List.mem_range]
  constructor
  · rintro ⟨k, hk, rfl⟩
    omega
  · intro h
    exact ⟨(i - lo).toNat, by omega, by omega⟩

namespace Offset

def norm2 (o : Offset) : Int :=
  o.dx * o.dx + o.dy * o.dy

/-- All offsets with both parts from `lo` to `hi`, row by row. -/
def grid (lo hi : Int) : List Offset :=
  (span lo hi).flatMap fun dy => (span lo hi).map fun dx => ⟨dx, dy⟩

theorem mem_grid_iff {lo hi : Int} {o : Offset} :
    o ∈ grid lo hi ↔ (lo ≤ o.dx ∧ o.dx ≤ hi) ∧ (lo ≤ o.dy ∧ o.dy ≤ hi) := by
  obtain ⟨dx, dy⟩ := o
  simp only [grid, List.mem_flatMap, List.mem_map, mem_span_iff, Offset.mk.injEq]
  constructor
  · rintro ⟨_, hy, _, hx, rfl, rfl⟩
    exact ⟨hx, hy⟩
  · rintro ⟨hx, hy⟩
    exact ⟨dy, hy, dx, hx, rfl, rfl⟩

/-- The square of a given side whose middle, or the cell right and below of it, is the cursor. -/
def square (side : Int) : List Offset :=
  let lo := -(side.tdiv 2)
  grid lo (lo + side - 1)

def disk (radius : Int) : List Offset :=
  (grid (-radius) radius).filter fun o => o.norm2 ≤ radius * radius

def diamond (size : Int) : List Offset :=
  (grid (-size) size).filter fun o => o.dx.natAbs + o.dy.natAbs ≤ size

def cross (arm thickness : Int) : List Offset :=
  (grid (-arm) arm).filter fun o => o.dx.natAbs ≤ thickness ∨ o.dy.natAbs ≤ thickness

/-- The square, with the arithmetic of its bounds and of its size done in 32-bit words. -/
def squareChecked (side : Int) : Checked (List Offset) := do
  let lo ← Checked.int32 (-(side.tdiv 2))
  let past ← Checked.int32 (lo + side)
  discard <| Checked.int32 (past - 1)
  discard <| Checked.int32 (side * side)
  return square side

/-- The disk, with the distance of every cell computed in 32-bit words. -/
def diskChecked (radius : Int) : Checked (List Offset) := do
  let bound ← Checked.int32 (radius * radius)
  let rows ← (span (-radius) radius).mapM fun dy =>
    (span (-radius) radius).filterMapM fun dx => do
      let x2 ← Checked.int32 (dx * dx)
      let y2 ← Checked.int32 (dy * dy)
      let d2 ← Checked.int32 (x2 + y2)
      return if d2 ≤ bound then some ⟨dx, dy⟩ else none
  return rows.flatten

end Offset

structure Vertex where
  x : Float
  y : Float

namespace Vertex

/-- Whether the ray from `p` to the right crosses the edge from `w` to `v`. -/
def crosses (p v w : Vertex) : Bool :=
  (decide (v.y > p.y) != decide (w.y > p.y)) &&
    decide (p.x < (w.x - v.x) * (p.y - v.y) / (w.y - v.y) + v.x)

/-- A point is inside when the ray crosses an odd number of edges. -/
def inside (p : Vertex) (polygon : List Vertex) : Bool :=
  let edges := polygon.zip (polygon.getLast?.toList ++ polygon)
  edges.foldl (fun odd e => odd != p.crosses e.1 e.2) false

/-- Corners of a star with five tips, the first tip pointing up. -/
def star (outer inner : Float) : List Vertex :=
  (List.range 10).map fun i =>
    let angle := i.toFloat * 3.141592653589793 / 5.0 - 1.5707963267948966
    let r := if i % 2 = 0 then outer else inner
    ⟨r * angle.cos, r * angle.sin⟩

end Vertex

namespace Offset

def star : List Offset :=
  let corners := Vertex.star 15.0 7.0
  (grid (-15) 15).filter fun o => Vertex.inside ⟨Float.ofInt o.dx, Float.ofInt o.dy⟩ corners

-- Eight points of a circle of radius 11, in steps of 45 degrees, rounded to cells.
def petals : List Offset :=
  [⟨11, 0⟩, ⟨8, 8⟩, ⟨0, 11⟩, ⟨-8, 8⟩, ⟨-11, 0⟩, ⟨-8, -8⟩, ⟨0, -11⟩, ⟨8, -8⟩]

/-- A disk of radius 6 with eight disks of radius 5 around it, column by column. -/
def flower : List Offset :=
  (span (-16) 16).flatMap fun dx => (span (-16) 16).filterMap fun dy =>
    if (⟨dx, dy⟩ : Offset).norm2 ≤ 36 ∨
        petals.any fun p => (⟨dx - p.dx, dy - p.dy⟩ : Offset).norm2 ≤ 25 then
      some ⟨dx, dy⟩
    else
      none

end Offset

/-- What a tool paints: always the same cells, or those that a random source picks. -/
inductive Footprint
  | fixed (cells : List Offset)
  | spray

namespace Footprint

def penCells : List Offset := Offset.square 3
def brushCells : List Offset := Offset.square 12
def largeBrushCells : List Offset := Offset.square 20
def largerBrushCells : List Offset := Offset.square 28
def starCells : List Offset := Offset.star
def crossCells : List Offset := Offset.cross 20 3
def circleCells : List Offset := Offset.disk 12
def diamondCells : List Offset := Offset.diamond 16
def flowerCells : List Offset := Offset.flower

end Footprint

open Footprint in
def Tool.footprint : Tool → Footprint
  | pen         => .fixed penCells
  | brush       => .fixed brushCells
  | largeBrush  => .fixed largeBrushCells
  | largerBrush => .fixed largerBrushCells
  | spray       => .spray
  | star        => .fixed starCells
  | cross       => .fixed crossCells
  | circle      => .fixed circleCells
  | diamond     => .fixed diamondCells
  | flower      => .fixed flowerCells

end Atelier
