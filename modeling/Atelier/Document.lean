import Atelier.Json.Access
import Atelier.Memory
import Atelier.Speed

/-!
Documents: the small values that occur in many of them, and the two histories. Alternatives are
written by their names, times as texts. Every `toJson` has an `ofJson?` that reads what it writes.
-/

namespace Atelier

namespace Color

def toJson (c : Color) : Json := .ofString c.name

def ofJson? : Json → Option Color := Json.choice? ofName?

end Color

namespace Tool

def toJson (t : Tool) : Json := .ofString t.name

def ofJson? : Json → Option Tool := Json.choice? ofName?

end Tool

namespace Pace

def toJson (p : Pace) : Json := .ofString p.name

def ofJson? : Json → Option Pace := Json.choice? ofName?

end Pace

namespace SleepPhase

def toJson (p : SleepPhase) : Json := .ofString p.name

def ofJson? : Json → Option SleepPhase := Json.choice? ofName?

end SleepPhase

namespace Instant

def toJson (t : Instant) : Json := .ofString t.text

def ofJson? (v : Json) : Option Instant := v.text?.bind read

end Instant

namespace CodeContext

def fields : List String :=
  ["emotion", "x", "y", "color", "pen_down", "pixels_drawn", "tool"]

def toJson (c : CodeContext) : Json :=
  .object [
    ("emotion", .ofString c.emotion),
    ("x", .ofInt c.x),
    ("y", .ofInt c.y),
    ("color", c.color.toJson),
    ("pen_down", .bool c.penDown),
    ("pixels_drawn", .ofNat c.pixelsDrawn),
    ("tool", c.tool.toJson)]

def ofJson? (v : Json) : Option CodeContext := do
  let r ← v.record? fields
  return {
    emotion := ← r.required "emotion" Json.text?
    x := ← r.required "x" Json.int32?
    y := ← r.required "y" Json.int32?
    color := ← r.required "color" Color.ofJson?
    penDown := ← r.required "pen_down" Json.bool?
    pixelsDrawn := ← r.required "pixels_drawn" Json.nat64?
    tool := ← r.required "tool" Tool.ofJson?
  }

end CodeContext

namespace CodeMemory

def fields : List String :=
  ["code", "context", "timestamp"]

def toJson (m : CodeMemory) : Json :=
  .object [
    ("code", .ofString m.code),
    ("context", m.context.toJson),
    ("timestamp", m.timestamp.toJson)]

def ofJson? (v : Json) : Option CodeMemory := do
  let r ← v.record? fields
  return {
    code := ← r.required "code" Json.text?
    context := ← r.required "context" CodeContext.ofJson?
    timestamp := ← r.required "timestamp" Instant.ofJson?
  }

end CodeMemory

namespace Dream

def fields : List String :=
  ["content", "phase", "timestamp", "context_snapshot"]

def toJson (d : Dream) : Json :=
  .object [
    ("content", .ofString d.content),
    ("phase", d.phase.toJson),
    ("timestamp", d.timestamp.toJson),
    ("context_snapshot", .ofString d.overview)]

def ofJson? (v : Json) : Option Dream := do
  let r ← v.record? fields
  return {
    content := ← r.required "content" Json.text?
    phase := ← r.required "phase" SleepPhase.ofJson?
    timestamp := ← r.required "timestamp" Instant.ofJson?
    overview := ← r.withDefault "context_snapshot" Json.text? ""
  }

end Dream

end Atelier
