import Atelier.Store
import Atelier.View
import Atelier.Zone

/-!
Snapshots: pictures that are kept for good, each with a sidecar document about it. Both files are named
after the mood and the second that local clocks show.
-/

namespace Atelier

/-- What the sidecar says. -/
structure Sidecar where
  timestamp : LocalTime
  emotion : String
  size : Size
  scale : Float
  position : Int × Int
  /-- Colours of the latest changes, in the order of the palette. -/
  colors : List Color
  tool : Tool
  steps : Nat
  overview : String

namespace Sidecar

def toJson (s : Sidecar) : Json :=
  .object [
    ("timestamp", .ofString s.timestamp.text),
    ("emotion", .ofString s.emotion),
    ("canvas_width", .ofNat s.size.width),
    ("canvas_height", .ofNat s.size.height),
    ("scale_factor", .ofFloat s.scale),
    ("position", .arr [.ofInt s.position.1, .ofInt s.position.2]),
    ("colors_used", .ofList Color.toJson s.colors),
    ("tool", s.tool.toJson),
    ("steps", .ofNat s.steps),
    ("overview", .ofString s.overview)]

/-- What there is to say about a canvas. -/
def ofCanvas (c : Canvas) (emotion : String) (steps : Nat) (time : LocalTime) : Sidecar where
  timestamp := time
  emotion := emotion
  size := ⟨c.width, c.height⟩
  scale := c.scale
  position := (c.cursor.x, c.cursor.y)
  colors := Color.all.filter c.colors.items.contains
  tool := c.cursor.tool
  steps := steps
  overview := (Overview.ofRaster c.raster).text

end Sidecar

structure SnapshotTargets where
  image : Path
  sidecar : Path
deriving DecidableEq

namespace Snapshot

def folder : Path := ["snapshots"]

/-- The word for a mood in a file name. -/
def tag (emotion : String) : String :=
  (Text.trim emotion).map fun c => if c = ' ' then '_' else c

def imageName (stem suffix : String) : String :=
  s!"{stem}_{suffix}.png"

/-- The files of a snapshot, by what the clocks show. -/
def targets (dir : Path) (shown : Instant) (emotion : String) : SnapshotTargets :=
  let stem := "aurora_" ++ shown.stamp
  let tag := tag emotion
  ⟨dir ++ [imageName stem tag], dir ++ [s!"{stem}_{tag}_meta.json"]⟩

def write (r : Raster) (s : Sidecar) : Saving SnapshotTargets := do
  Saving.makeFolders folder (.snapshotFolder folder)
  let t := targets folder s.timestamp.shown s.emotion
  Saving.writePicture t.image r
  Saving.writeText t.sidecar (.sidecar t.sidecar) s.toJson.pretty
  return t

end Snapshot

end Atelier
