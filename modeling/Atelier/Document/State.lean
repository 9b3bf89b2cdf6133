import Atelier.Canvas
import Atelier.Document

/-!
The state document: cursor, scale, counters and schedule of a session, all in one flat object.
-/

namespace Atelier

namespace Schedule.Snapshot

def fields : List String :=
  ["mode", "mode_start_time", "sleep_phase", "sleep_phase_start", "last_checkin_time"]

def members (s : Snapshot) : List (String × Json) :=
  [("mode", .ofString s.mode.name),
    ("mode_start_time", s.modeStart.toJson),
    ("sleep_phase", s.phase.toJson),
    ("sleep_phase_start", s.phaseStart.toJson),
    ("last_checkin_time", s.lastCheckIn.toJson)]

def toJson (s : Snapshot) : Json :=
  .object s.members

def ofRecord? (kind? : Json → Option ModeKind) (phase? : Json → Option SleepPhase)
    (r : Json.Record) : Option Snapshot := do
  return {
    mode := ← r.required "mode" kind?
    modeStart := ← r.required "mode_start_time" Instant.ofJson?
    phase := ← r.required "sleep_phase" phase?
    phaseStart := ← r.required "sleep_phase_start" Instant.ofJson?
    lastCheckIn := ← r.required "last_checkin_time" Instant.ofJson?
  }

def ofJson? (v : Json) : Option Snapshot :=
  (v.record? fields).bind (ofRecord? (Json.choice? ModeKind.ofName?) SleepPhase.ofJson?)

end Schedule.Snapshot

structure SavedState where
  cursor : Cursor
  emotion : String
  steps : Nat
  size : Size
  scale : Float
  skips : Nat
  pace : Pace
  /-- Delay before the next tick in milliseconds. -/
  delay : Nat
  colors : List Color
  lastTurnColor : Option Color
  schedule : Schedule.Snapshot
  timestamp : Instant

namespace SavedState

/-- Names of the fields that are the document's own, in front of and behind those of the schedule. -/
def fields : List String :=
  ["x", "y", "pen_down", "color", "emotion", "steps", "canvas_width", "canvas_height",
    "scale_factor", "skip_count", "speed", "delay_ms", "tool", "color_history", "last_turn_color",
    "timestamp"]

def toJson (s : SavedState) : Json :=
  .object <|
    [("x", .ofInt s.cursor.x),
      ("y", .ofInt s.cursor.y),
      ("pen_down", .bool s.cursor.penDown),
      ("color", s.cursor.color.toJson),
      ("emotion", .ofString s.emotion),
      ("steps", .ofNat s.steps),
      ("canvas_width", .ofNat s.size.width),
      ("canvas_height", .ofNat s.size.height),
      ("scale_factor", .ofFloat s.scale),
      ("skip_count", .ofNat s.skips),
      ("speed", s.pace.toJson),
      ("delay_ms", .ofNat s.delay),
      ("tool", s.cursor.tool.toJson),
      ("color_history", .ofList Color.toJson s.colors),
      ("last_turn_color", .ofOption Color.toJson s.lastTurnColor)] ++
    s.schedule.members ++
    [("timestamp", s.timestamp.toJson)]

/-- How deep values may be nested in the document, apart from the document's own fields. -/
def heldDepth : Nat := 126

-- Members that are not the document's own are taken up whole before the schedule is looked for among
-- them, so each of them has to stand for something.
def ofJson? (v : Json) : Option SavedState := do
  let ms ←
    match v with
    | .obj _ => v.members?
    | _ => none
  let others := ms.filter fun m => !fields.contains m.1
  if others.any fun m => !m.2.isHeld heldDepth then
    none
  let r ← Json.Record.ofMembers? fields ms
  let s ← Json.Record.ofMembers? Schedule.Snapshot.fields others
  return {
    cursor := {
      x := ← r.required "x" Json.int32?
      y := ← r.required "y" Json.int32?
      penDown := ← r.required "pen_down" Json.bool?
      color := ← r.required "color" Color.ofJson?
      tool := ← r.withDefault "tool" Tool.ofJson? default
    }
    emotion := ← r.required "emotion" Json.text?
    steps := ← r.required "steps" Json.nat64?
    size := {
      width := ← r.required "canvas_width" Json.nat32?
      height := ← r.required "canvas_height" Json.nat32?
    }
    scale := ← r.required "scale_factor" Json.float?
    skips := ← r.required "skip_count" Json.nat64?
    pace := ← r.required "speed" Pace.ofJson?
    delay := ← r.required "delay_ms" Json.nat64?
    colors := ← r.withDefault "color_history" (Json.list? Color.ofJson?) []
    lastTurnColor := ← r.withDefault "last_turn_color" (Json.option? Color.ofJson?) none
    schedule :=
      ← Schedule.Snapshot.ofRecord? (Json.heldChoice? ModeKind.ofName?)
        (Json.heldChoice? SleepPhase.ofName?) s
    timestamp := ← r.required "timestamp" Instant.ofJson?
  }

end SavedState

end Atelier
