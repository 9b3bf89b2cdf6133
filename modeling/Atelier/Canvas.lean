import Atelier.History
import Atelier.Raster
import Atelier.Rounding
import Atelier.Spray

/-!
The canvas: a raster with a cursor on it, a pixel scale that decides its size on a screen, the
latest colour changes and the source of the spray. Positions are signed words of 32 bits, so canvases
have sides of less than 2³¹ cells.
-/

namespace Atelier

structure Cursor where
  x : Int
  y : Int
  penDown : Bool
  color : Color
  tool : Tool
deriving DecidableEq

structure Size where
  width : Nat
  height : Nat
deriving DecidableEq

inductive Zoom
  -- The scale grows, so fewer cells fit on the screen.
  | smaller
  -- The scale goes back towards one.
  | larger
deriving DecidableEq

structure MoveOutcome where
  moved : Bool
  painted : Nat
deriving DecidableEq

structure Canvas where
  raster : Raster
  cursor : Cursor
  scale : Float
  screen : Size
  colors : History Color
  spray : Spray

namespace Canvas

/-- Cells that the cursor goes in one move. -/
def stride : Int := 7

def minScale : Float := 1.0
def maxScale : Float := 8.0
def zoomFactor : Float := 1.25

/-- Part of each side of the screen that the canvas leaves free. -/
def margin : Nat := 40

def colorLimit : Nat := 20

def clampScale (scale : Float) : Float :=
  clampFloat minScale maxScale scale

/-- Length of a side of the canvas on a screen side of the given length. It is at least one, and
only its low 32 bits count. -/
def side (screen : Nat) (scale : Float) : Checked Nat := do
  let free ← Checked.int64 (truncate64 (Float.ofNat screen / scale) - margin)
  return (max free 1).toNat % 4294967296

def dims (screen : Size) (scale : Float) : Checked Size := do
  let width ← side screen.width scale
  let height ← side screen.height scale
  return ⟨width, height⟩

/-- A blank canvas of a given size, on the screen for which the scale is one. -/
def ofSize (size : Size) (spray : Spray) : Checked Canvas := do
  let raster ← Raster.filledChecked (max size.width 1) (max size.height 1) Rgb.black
  let screenWidth ← Checked.nat32 (size.width + margin)
  let screenHeight ← Checked.nat32 (size.height + margin)
  return {
    raster := raster
    cursor := ⟨(size.width / 2 : Nat), (size.height / 2 : Nat), true, .white, .brush⟩
    scale := minScale
    screen := ⟨screenWidth, screenHeight⟩
    colors := History.empty colorLimit
    spray := spray
  }

/-- A blank canvas that fills a screen at a given scale. -/
def ofScreen (screen : Size) (scale : Float) (spray : Spray) : Checked Canvas := do
  let scale := clampScale scale
  let size ← dims screen scale
  let c ← ofSize size spray
  return { c with scale := scale, screen := screen }

def width (c : Canvas) : Nat := c.raster.width

def height (c : Canvas) : Nat := c.raster.height

/-- The nearest column or row of a side. In words it is defined for sides of less than 2³¹ cells only: the last
column of a longer one is no word. -/
def nearest (side : Nat) (i : Int) : Int :=
  max 0 (min i (side - 1))

/-- The offsets that the current tool paints; the spray's source moves on. -/
def footprint (c : Canvas) : List Offset × Spray :=
  match c.cursor.tool.footprint with
  | .fixed cells => (cells, c.spray)
  | .spray => c.spray.cells

/-- Paints the footprint of the tool at the cursor, and counts the cells that lie on the canvas. No position
overflows on sides of up to 2³¹ - 20 cells, since tools reach 20 cells far. -/
def stroke (c : Canvas) : Checked (Canvas × Nat) := do
  let (os, spray) := c.footprint
  let { x, y, color, .. } := c.cursor
  os.forM fun o => do
    discard <| Checked.int32 (x + o.dx)
    discard <| Checked.int32 (y + o.dy)
  let painted := os.countP fun o => c.raster.Inside (x + o.dx) (y + o.dy)
  return ({ c with raster := c.raster.paint x y color.rgb os, spray := spray }, painted)

/-- Moves the cursor as far as the canvas goes. With the pen down, a move that changes the position
paints. No position overflows where none does in a stroke. -/
def move (c : Canvas) (d : Direction) : Checked (Canvas × MoveOutcome) := do
  let x ← Checked.int32 (c.cursor.x + d.dx * stride)
  let y ← Checked.int32 (c.cursor.y + d.dy * stride)
  let x := nearest c.width x
  let y := nearest c.height y
  let moved := x != c.cursor.x || y != c.cursor.y
  let c := { c with cursor := { c.cursor with x := x, y := y } }
  if moved && c.cursor.penDown then
    let (c, painted) ← c.stroke
    return (c, ⟨true, painted⟩)
  else
    return (c, ⟨moved, 0⟩)

def setPen (c : Canvas) (down : Bool) : Canvas :=
  { c with cursor := { c.cursor with penDown := down } }

/-- Takes another colour and remembers it. Taking the current colour changes nothing. -/
def setColor (c : Canvas) (color : Color) : Canvas :=
  if c.cursor.color = color then
    c
  else
    { c with cursor := { c.cursor with color := color }, colors := c.colors.push color }

def setTool (c : Canvas) (tool : Tool) : Canvas :=
  { c with cursor := { c.cursor with tool := tool } }

def center (c : Canvas) : Canvas :=
  { c with cursor := { c.cursor with x := (c.width / 2 : Nat), y := (c.height / 2 : Nat) } }

def clear (c : Canvas) : Canvas :=
  { c with raster := c.raster.fill Rgb.black }

def fill (c : Canvas) : Canvas :=
  { c with raster := c.raster.fill c.cursor.color.rgb }

/-- The cursor after its cell has moved by an offset, put back onto a canvas of the given size. A cursor that
was on a canvas does not overflow; one from a document may. -/
def shiftCursor (cursor : Cursor) (o : Offset) (width height : Nat) : Checked Cursor := do
  let x ← Checked.int32 (cursor.x + o.dx)
  let y ← Checked.int32 (cursor.y + o.dy)
  return { cursor with x := nearest width x, y := nearest height y }

/-- Centres the picture in a canvas of another size; the cursor moves along. Nothing overflows between sides of
less than 2³¹ cells, as long as the bytes of the picture can be counted. -/
def resize (c : Canvas) (size : Size) : Checked Canvas := do
  let width := max size.width 1
  let height := max size.height 1
  if width = c.width ∧ height = c.height then
    return c
  let (raster, o) ← c.raster.migrate width height
  let cursor ← shiftCursor c.cursor o width height
  return { c with raster := raster, cursor := cursor }

/-- Changes the scale by one step. At the end of the range nothing changes. -/
def zoom (c : Canvas) (z : Zoom) : Checked (Canvas × Bool) := do
  let next := clampScale <|
    match z with
    | .smaller => c.scale * zoomFactor
    | .larger => c.scale / zoomFactor
  if (next - c.scale).abs < 2.220446049250313e-16 then
    return (c, false)
  let size ← dims c.screen next
  let c ← { c with scale := next }.resize size
  return (c, true)

def rescale (c : Canvas) (screen : Size) (scale : Float) : Checked Canvas := do
  let scale := clampScale scale
  let size ← dims screen scale
  { c with screen := screen, scale := scale }.resize size

/-- Takes over a stored picture, centred in this canvas, with a cursor on that picture. Without a
picture the cursor is taken as one on this canvas. The sizes are as in `resize`, and the cursor may overflow. -/
def restore (c : Canvas) (stored : Option Raster) (cursor : Cursor) (colors : List Color) :
    Checked Canvas := do
  let colors := ⟨lastOf colorLimit colors, colorLimit⟩
  match stored with
  | some r =>
    let (raster, o) ← r.migrate c.width c.height
    let cursor ← shiftCursor cursor o c.width c.height
    return { c with raster := raster, cursor := cursor, colors := colors }
  | none =>
    let cursor := { cursor with x := nearest c.width cursor.x, y := nearest c.height cursor.y }
    return { c with cursor := cursor, colors := colors }

theorem nearest_mem {side : Nat} (h : 0 < side) (i : Int) :
    0 ≤ nearest side i ∧ nearest side i < side := by
  unfold nearest
  omega

theorem nearest_of_mem {side : Nat} {i : Int} (h₁ : 0 ≤ i) (h₂ : i < side) :
    nearest side i = i := by
  unfold nearest
  omega

end Canvas

end Atelier
