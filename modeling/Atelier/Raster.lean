import Atelier.Footprint
import Atelier.Palette

/-!
Rasters: a rectangle of cells, kept row by row. Coordinates are integers, since strokes and windows
may hang over the edge; a coordinate outside the rectangle has no cell.
-/

namespace Atelier

structure Raster where
  width : Nat
  height : Nat
  cells : Array Rgb
deriving DecidableEq

namespace Raster

/-- A raster has one cell for each position. -/
def WellFormed (r : Raster) : Prop :=
  r.cells.size = r.width * r.height

def filled (width height : Nat) (c : Rgb) : Raster :=
  ⟨width, height, Array.replicate (width * height) c⟩

/-- The number of bytes of a raster, three for each cell, has to fit into a signed word of 64 bits. -/
def countBytes (width height : Nat) : Checked Unit :=
  discard <| Checked.int64 (width * height * 3)

def filledChecked (width height : Nat) (c : Rgb) : Checked Raster := do
  countBytes width height
  return filled width height c

/-- The raster whose cell in column `x` and row `y` is `f x y`. -/
def generate (width height : Nat) (f : Nat → Nat → Rgb) : Raster :=
  ⟨width, height, Array.ofFn fun (i : Fin (width * height)) => f (i % width) (i / width)⟩

/-- A side as a signed word of 32 bits. From 2³¹ on it counts as negative. -/
def sideWord (side : Nat) : Int :=
  Int.bmod side 4294967296

def Inside (r : Raster) (x y : Int) : Prop :=
  (0 ≤ x ∧ x < sideWord r.width) ∧ 0 ≤ y ∧ y < sideWord r.height

instance (r : Raster) (x y : Int) : Decidable (r.Inside x y) := by
  unfold Inside
  infer_instance

/-- Where the cell of a position is kept. -/
def index? (r : Raster) (x y : Int) : Option Nat :=
  if r.Inside x y then some (y.toNat * r.width + x.toNat) else none

def get? (r : Raster) (x y : Int) : Option Rgb :=
  match r.index? x y with
  | some i => r.cells[i]?
  | none => none

/-- Changes one cell. Positions outside are ignored. -/
def set (r : Raster) (x y : Int) (c : Rgb) : Raster :=
  match r.index? x y with
  | some i => { r with cells := r.cells.setIfInBounds i c }
  | none => r

def fill (r : Raster) (c : Rgb) : Raster :=
  filled r.width r.height c

/-- Number of cells that are not black. -/
def paintedCount (r : Raster) : Nat :=
  r.cells.foldl (fun n c => if c.isBlack then n else n + 1) 0

/-- Paints cells given relative to a position. -/
def paint (r : Raster) (x y : Int) (c : Rgb) (os : List Offset) : Raster :=
  os.foldl (fun r o => r.set (x + o.dx) (y + o.dy) c) r

/-- How far cells move when the raster is centred in a rectangle of another size. -/
def offsetTo (r : Raster) (width height : Nat) : Offset :=
  ⟨(sideWord width - sideWord r.width).tdiv 2, (sideWord height - sideWord r.height).tdiv 2⟩

/-- The raster centred in a rectangle of another size: black cells are added around it where the
rectangle is larger, and cells are cut off where it is smaller. -/
def centredIn (r : Raster) (width height : Nat) : Raster :=
  let o := r.offsetTo width height
  generate width height fun x y => (r.get? (x - o.dx) (y - o.dy)).getD Rgb.black

/-- Centring, with the new coordinates of all cells computed in 32-bit words. -/
def migrate (r : Raster) (width height : Nat) : Checked (Raster × Offset) := do
  discard <| Checked.int32 (sideWord width - sideWord r.width)
  discard <| Checked.int32 (sideWord height - sideWord r.height)
  let o := r.offsetTo width height
  Checked.run32 o.dx (sideWord r.width).toNat
  Checked.run32 o.dy (sideWord r.height).toNat
  countBytes width height
  return (r.centredIn width height, o)

/-- The cells row by row, three bytes each. -/
def bytes (r : Raster) : List UInt8 :=
  r.cells.toList.flatMap fun c => [c.r, c.g, c.b]

/-- Reads triples of bytes. -/
def cellsOfBytes : List UInt8 → List Rgb
  | r :: g :: b :: rest => ⟨r, g, b⟩ :: cellsOfBytes rest
  | _ => []

def ofBytes (width height : Nat) (bs : List UInt8) : Raster :=
  ⟨width, height, (cellsOfBytes bs).toArray⟩

theorem sideWord_of_lt {side : Nat} (h : side < 2147483648) : sideWord side = side := by
  unfold sideWord
  rw [Int.bmod_eq_of_le] <;> omega

theorem sideWord_le (side : Nat) : sideWord side ≤ side := by
  unfold sideWord
  rw [Int.bmod_def]
  split <;> omega

theorem index?_of_inside {r : Raster} {x y : Int} (h : r.Inside x y) :
    r.index? x y = some (y.toNat * r.width + x.toNat) :=
  if_pos h

theorem index?_of_not_inside {r : Raster} {x y : Int} (h : ¬r.Inside x y) : r.index? x y = none :=
  if_neg h

theorem get?_of_inside {r : Raster} {x y : Int} (h : r.Inside x y) :
    r.get? x y = r.cells[y.toNat * r.width + x.toNat]? := by
  rw [get?, index?_of_inside h]

theorem get?_of_not_inside {r : Raster} {x y : Int} (h : ¬r.Inside x y) : r.get? x y = none := by
  rw [get?, index?_of_not_inside h]

theorem index?_lt {r : Raster} {x y : Int} {i : Nat} (h : r.index? x y = some i) :
    i < r.width * r.height := by
  unfold index? at h
  split at h
  case isFalse => cases h
  case isTrue hi =>
    cases h
    obtain ⟨⟨hx, hx'⟩, hy, hy'⟩ := hi
    have hw := sideWord_le r.width
    have hh := sideWord_le r.height
    have h₁ : y.toNat + 1 ≤ r.height := by omega
    have h₂ : x.toNat < r.width := by omega
    calc y.toNat * r.width + x.toNat
      _ < (y.toNat + 1) * r.width := by rw [Nat.add_one_mul]; omega
      _ ≤ r.height * r.width := Nat.mul_le_mul_right _ h₁
      _ = r.width * r.height := Nat.mul_comm ..

theorem wellFormed_filled (width height : Nat) (c : Rgb) : (filled width height c).WellFormed := by
  simp [WellFormed, filled]

theorem wellFormed_generate (width height : Nat) (f : Nat → Nat → Rgb) :
    (generate width height f).WellFormed := by
  simp [WellFormed, generate]

@[simp]
theorem width_set (r : Raster) (x y : Int) (c : Rgb) : (r.set x y c).width = r.width := by
  unfold set
  split <;> rfl

@[simp]
theorem height_set (r : Raster) (x y : Int) (c : Rgb) : (r.set x y c).height = r.height := by
  unfold set
  split <;> rfl

theorem wellFormed_set {r : Raster} (h : r.WellFormed) (x y : Int) (c : Rgb) :
    (r.set x y c).WellFormed := by
  unfold WellFormed set
  split <;> simpa [WellFormed] using h

theorem wellFormed_paint {r : Raster} (h : r.WellFormed) (x y : Int) (c : Rgb) (os : List Offset) :
    (r.paint x y c os).WellFormed := by
  unfold paint
  induction os generalizing r with
  | nil => exact h
  | cons o os ih => exact ih (wellFormed_set h ..)

end Raster

end Atelier
