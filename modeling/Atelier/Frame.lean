import Atelier.Canvas

/-!
Frames: the canvas as it is displayed, enlarged by repeating cells, with a marker on the cursor. A
frame shows the whole canvas, or a window of a fixed size with the cursor in its middle.
-/

namespace Atelier

structure Rgba where
  r : UInt8
  g : UInt8
  b : UInt8
  a : UInt8
deriving DecidableEq, Inhabited

def Rgb.solid (c : Rgb) : Rgba := ⟨c.r, c.g, c.b, 255⟩

inductive Viewport
  | full
  | centered (size : Size)

structure Frame where
  width : Nat
  height : Nat
  pixels : Array Rgba

namespace Frame

/-- Colour of pixels that show no cell. -/
def outside : Rgba := ⟨24, 24, 24, 255⟩

def marker (penDown : Bool) : Rgba :=
  if penDown then ⟨255, 255, 255, 255⟩ else ⟨128, 128, 128, 255⟩

/-- Scales below a tenth, and undefined ones, count as a tenth. -/
def clampScale (scale : Float) : Float :=
  if scale > 0.1 then scale else 0.1

def cursorRadius (scale : Float) : Int :=
  max 5 (truncate32 (7.0 * scale))

/-- Length of a side of the enlarged canvas. -/
def fullSide (side : Nat) (scale : Float) : Nat :=
  max 1 (min 4294967295 (roundNat (Float.ofNat side * scale)))

/-- The pixel of the enlarged canvas that shows the middle of a column or row. -/
def pixelOf (i : Int) (scale : Float) : Int :=
  truncate64 ((Float.ofInt i + 0.5) * scale)

structure Layout where
  size : Size
  /-- The pixel of the enlarged canvas that is shown in the first column of the first row. -/
  origin : Int × Int

def layout (c : Canvas) (scale : Float) : Viewport → Checked Layout
  | .full => return ⟨⟨fullSide c.width scale, fullSide c.height scale⟩, (0, 0)⟩
  | .centered size => do
    let width := max size.width 1
    let height := max size.height 1
    let x ← Checked.int64 (pixelOf c.cursor.x scale - (width / 2 : Nat))
    let y ← Checked.int64 (pixelOf c.cursor.y scale - (height / 2 : Nat))
    return ⟨⟨width, height⟩, (x, y)⟩

/-- What all pixels of a column or of a row have in common. -/
structure Lane where
  /-- The column or row of the canvas, if the enlarged canvas goes that far. -/
  cell : Option Int
  /-- Pixels from the cursor. -/
  distance : Int
deriving Inhabited

/-- The lane at a column or row of the enlarged canvas. -/
def lane (side : Nat) (scale : Float) (cursor i : Int) : Lane where
  cell := if 0 ≤ i ∧ i < fullSide side scale then some (truncate32 (Float.ofInt i / scale)) else none
  distance := i - pixelOf cursor scale

def lanes (side : Nat) (scale : Float) (cursor origin : Int) (count : Nat) : Array Lane :=
  Array.ofFn fun (k : Fin count) => lane side scale cursor (origin + k)

/-- The marker covers a disk around the cursor. -/
def pixel (c : Canvas) (radius : Int) (column row : Lane) : Rgba :=
  if (⟨column.distance, row.distance⟩ : Offset).norm2 ≤ radius * radius then
    marker c.cursor.penDown
  else
    match column.cell, row.cell with
    | some x, some y => ((c.raster.get? x y).map Rgb.solid).getD outside
    | _, _ => outside

/-- The frame of a canvas, with the number of its bytes, all its positions and those of the marker computed
in 64-bit words. -/
def ofCanvas (c : Canvas) (scale : Float) (viewport : Viewport) : Checked Frame := do
  let scale := clampScale scale
  let l ← layout c scale viewport
  let { width, height } := l.size
  let radius := cursorRadius scale
  discard <| Checked.int64 (4 * width * height)
  Checked.run64 l.origin.1 width
  Checked.run64 l.origin.2 height
  Checked.run64 (pixelOf c.cursor.x scale - l.origin.1 - radius) (2 * radius + 1).toNat
  Checked.run64 (pixelOf c.cursor.y scale - l.origin.2 - radius) (2 * radius + 1).toNat
  let columns := lanes c.width scale c.cursor.x l.origin.1 width
  let rows := lanes c.height scale c.cursor.y l.origin.2 height
  return ⟨width, height, Array.ofFn fun (i : Fin (width * height)) =>
    pixel c radius (columns.getD (i % width) default) (rows.getD (i / width) default)⟩

def get? (f : Frame) (x y : Int) : Option Rgba :=
  if 0 ≤ x ∧ 0 ≤ y ∧ x < f.width ∧ y < f.height then
    f.pixels[y.toNat * f.width + x.toNat]?
  else
    none

end Frame

end Atelier
