import Atelier.Canvas
import Atelier.Decimal.Dyadic
import Atelier.Tally

/-!
The canvas as text: a window around the cursor in three modes, the whole canvas sampled down, and an
overview that counts cells by colour.
-/

namespace Atelier

inductive ViewMode
  | normal
  | density
  | shape
deriving DecidableEq

namespace ViewMode

instance : Inhabited ViewMode := ⟨normal⟩

def all : List ViewMode := [normal, density, shape]

def name : ViewMode → String
  | normal  => "normal"
  | density => "density"
  | shape   => "shape"

def title : ViewMode → String
  | normal  => "NORMAL"
  | density => "DENSITY"
  | shape   => "SHAPE"

end ViewMode

/-- A view has a heading, if there is something to say, and rows of glyphs under it. -/
structure View where
  heading : Option String
  rows : List (List Char)

namespace View

def text (v : View) : String :=
  "\n".intercalate (v.heading.toList ++ v.rows.map String.ofList)

def wall : Char := '█'
def blank : Char := '·'

def cursorGlyph (penDown : Bool) : Char :=
  if penDown then '◉' else '○'

/-- Cells that are neither background nor white count as filled. -/
def isFilled (r : Raster) (x y : Int) : Bool :=
  match r.get? x y with
  | some c => !c.isBlack && c != Color.white.rgb
  | none => false

/-- The share of filled cells among those of a square around a position that are on the raster. -/
def density (r : Raster) (x y radius : Int) : Float :=
  let columns := span (max (x - radius) 0) (min (x + radius) (r.width - 1))
  let rows := span (max (y - radius) 0) (min (y + radius) (r.height - 1))
  if columns.isEmpty || rows.isEmpty then
    0.0
  else
    let filled := rows.foldl (fun n y => n + columns.countP (isFilled r · y)) 0
    Float.ofNat filled / Float.ofNat (columns.length * rows.length)

/-- The density around any position, with all coordinates computed in 32-bit words. -/
def densityAt (r : Raster) (x y radius : Int) : Checked Float := do
  discard <| Checked.int32 (-radius)
  if 0 ≤ radius then
    discard <| Checked.int32 (x - radius)
    discard <| Checked.int32 (y - radius)
    discard <| Checked.int32 (x + radius)
    discard <| Checked.int32 (y + radius)
  return density r x y radius

def densityRadius : Int := 3

def densityGlyph (v : Float) : Char :=
  if v ≤ 0.0 then blank
  else if v < 0.2 then '░'
  else if v < 0.4 then '▒'
  else if v < 0.7 then '▓'
  else '█'

/-- A line character for a filled cell, after which of its neighbours are filled too. -/
def edgeGlyph (r : Raster) (x y : Int) : Char :=
  let filledAt (dx dy : Int) : Bool := isFilled r (x + dx) (y + dy)
  if !filledAt 0 0 then
    blank
  else
    let around := (Offset.grid (-1) 1).countP fun o => o != ⟨0, 0⟩ && filledAt o.dx o.dy
    if around ≥ 7 then
      '█'
    else
      match filledAt 0 (-1), filledAt 0 1, filledAt (-1) 0, filledAt 1 0 with
      | true, false, false, true => '┐'
      | true, false, true, false => '┌'
      | false, true, false, true => '┘'
      | false, true, true, false => '└'
      | true, true, false, false => '│'
      | false, false, true, true => '─'
      | true, true, _, true => '├'
      | true, true, true, false => '┤'
      | false, true, true, true => '┬'
      | true, false, true, true => '┴'
      | _, _, _, _ =>
        if filledAt (-1) (-1) && filledAt 1 1 then '╲'
        else if filledAt 1 (-1) && filledAt (-1) 1 then '╱'
        else '●'

/-- Half the side of the window. Small canvases get small windows. -/
def windowHalf (c : Canvas) (zoomedOut : Bool) : Nat :=
  let limit := if zoomedOut then 75 else 50
  min limit (max 1 (min c.width c.height / 2)) / 2

def edgeMargin : Int := 50

def nearEdge (c : Canvas) : Bool :=
  c.cursor.x < edgeMargin || c.cursor.y < edgeMargin ||
    c.cursor.x > c.width - edgeMargin || c.cursor.y > c.height - edgeMargin

def windowGlyph (c : Canvas) (mode : ViewMode) (dx dy : Int) : Char :=
  let x := c.cursor.x + dx
  let y := c.cursor.y + dy
  match c.raster.get? x y with
  | none => wall
  | some v =>
    if dx = 0 ∧ dy = 0 then
      cursorGlyph c.cursor.penDown
    else
      match mode with
      | .normal => v.glyph
      | .density => densityGlyph (density c.raster x y densityRadius)
      | .shape => edgeGlyph c.raster x y

def windowHeading (c : Canvas) (mode : ViewMode) (zoomedOut : Bool) : Option String :=
  if nearEdge c || zoomedOut then
    let label := if zoomedOut then "ZOOMED OUT" else "Near edge!"
    let size := s!"{c.width}×{c.height}"
    let place := "[" ++ label ++ " Canvas: " ++ size ++ ", Scale: " ++ Decimal.fixed 1 c.scale ++ "]"
    some (if mode = .normal then place else place ++ " [" ++ mode.title ++ " MODE]")
  else
    none

/-- The window around the cursor. Positions outside the canvas appear as walls. They are not checked: all of
them, and those that a density looks at, are words on sides of up to 2³⁰ cells. -/
def window (c : Canvas) (mode : ViewMode) (zoomedOut : Bool) : View :=
  let half : Int := windowHalf c zoomedOut
  ⟨windowHeading c mode zoomedOut,
    (span (-half) half).map fun dy => (span (-half) half).map fun dx => windowGlyph c mode dx dy⟩

def compressedSide : Nat := 60

/-- Distance between two sampled columns or rows. -/
def step (c : Canvas) : Nat :=
  max 1 (max c.width c.height / compressedSide)

/-- Number of samples on a side. -/
def samples (side step : Nat) : Nat :=
  (side + step - 1) / step

def sampleGlyph (c : Canvas) (x y : Nat) : Char :=
  if ((x : Int) - c.cursor.x).natAbs < step c ∧ ((y : Int) - c.cursor.y).natAbs < step c then
    cursorGlyph c.cursor.penDown
  else
    ((c.raster.get? x y).map Rgb.glyph).getD wall

/-- The whole canvas, sampled at every `step`-th column and row. The numbers of samples are not checked: the
sums for them are words on sides of up to 2³⁰ cells. -/
def compressed (c : Canvas) : View :=
  let columns := samples c.width (step c)
  let rows := samples c.height (step c)
  ⟨some s!"[FULL CANVAS COMPRESSED VIEW - {c.width}×{c.height} → {columns}×{rows}]",
    (List.range rows).map fun i => (List.range columns).map fun j =>
      sampleGlyph c (j * step c) (i * step c)⟩

end View

structure Overview where
  filled : Nat
  total : Nat
  counts : Tally
  unknown : Nat
deriving DecidableEq

namespace Overview

/-- Cells that are not black, and how many of them have each colour of the palette or none. -/
def ofRaster (r : Raster) : Overview :=
  let painted := r.cells.filter (!·.isBlack)
  let number (c : Color) : Option Nat :=
    let n := painted.countP (· == c.rgb)
    if n = 0 then none else some n
  ⟨painted.size, r.cells.size, .ofFunction number, painted.countP fun v => (Color.classify v).isNone⟩

/-- Percentage of cells that are not black. -/
def coverage (o : Overview) : Float :=
  if o.total = 0 then 0.0 else Float.ofNat o.filled * 100.0 / Float.ofNat o.total

def text (o : Overview) : String :=
  let drawn := s!"Canvas Overview: {o.filled} pixels drawn ({Decimal.fixed 1 o.coverage}% coverage)"
  let parts := o.counts.entries.map fun (c, n) => s!"{c.name}:{n}"
  let parts := if o.unknown > 0 then parts ++ [s!"unknown:{o.unknown}"] else parts
  if parts.isEmpty then drawn else drawn ++ "\nColors used: " ++ ", ".intercalate parts

end Overview

end Atelier
