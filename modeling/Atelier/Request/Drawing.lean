import Atelier.Canvas
import Atelier.Request

/-!
The request for a drawing: the code reference, a suggestion now and then, and what the model sees.
-/

namespace Atelier

/-- What a drawing is asked for with. -/
structure Scene where
  cursor : Cursor
  vision : String
  overlay : Option String
  emotion : String
  step : Nat
  repeating : Bool
  skips : Nat
  painted : Nat
  turbo : Bool

namespace Request

/-- The more is painted, the more is risked. -/
def drawingTemperature (painted : Nat) : Float32 :=
  let t := 0.7 + painted.toUInt64.toFloat32 / 1000.0
  if t < 1.5 then t else 1.5

def codeReference : String :=
  "\n".intercalate [
    "You are Aurora's motor control system. Output ONLY movement codes.",
    "CRITICAL: NO ENGLISH WORDS. NO EXPLANATIONS. CODES ONLY.",
    "",
    "MOVEMENT: 0 up, 1 down, 2 left, 3 right, 4 pen up, 5 pen down",
    "COLORS: red orange yellow green cyan blue purple pink white gray black brown magenta lime navy",
    "TOOLS: pen brush spray large_brush larger_brush star cross circle diamond flower",
    "VIEW: zoom_out zoom_in look_around full_canvas center normal_view density_view shape_view",
    "CANVAS: clear_all fill_canvas examples",
    "TEMPLATES: template_easy template_medium template_hard template_off",
    "SPEED: faster slower",
    "SOUNDS: ! @ # $ % ^ & *  (++ = next sound one octave down, -- = one octave up)",
    "PAUSE: 0123456789 = think",
    "",
    "Chain movements like 533333111112222200000, not just 5310.",
    "Output maximum 40 characters of pure codes only."]

/-- Patterns that are suggested in turn. -/
def ideas : List String := [
  "template_easy",
  "template_medium flower5",
  "template_hard zoom_out",
  "53333",
  "density_view look_around normal_view",
  "shape_view 5333322211100 normal_view",
  "red5333green5111blue5222",
  "5!3!3!3!",
  "brush533333",
  "star5",
  "++!++@++#++@++!",
  "white50000black52222",
  "53#31#31#31#",
  "flower5!@#$%",
  "diamond500002222",
  "spray5333111",
  "larger_brush53333",
  "5031320213",
  "yellow5*&%$#@!",
  "54225333541115222",
  "circle5++!++!",
  "Scale up: !@#$%^&*",
  "Scale down: *&^%$#@!",
  "Heartbeat: ++*++*++*"]

def idea (n : Nat) : String :=
  ideas.getD (n % ideas.length) ""

/-- A suggestion, for a drawer who repeats itself and at every hundredth step. -/
def boost? (step : Nat) (repeating : Bool) : Option String :=
  if repeating then
    let inspiration := idea step
    some s!"\nYou've been repeating! Try something NEW and DIFFERENT!\nInspiration: {inspiration}"
  else if step > 0 ∧ step % 100 = 0 then
    let pattern := idea (step / 100)
    some s!"\n\nCREATIVITY BOOST (Step {step})!\nTry this pattern: {pattern}"
  else
    none

def drawingSystem (s : Scene) : String :=
  let nudge :=
    if s.skips > 10 then
      "\n\nYou've been thinking a lot. Just make ONE mark: " ++
        "change tools, change colors, or simply draw a circle."
    else
      ""
  let symbols :=
    if s.cursor.tool.isStamp then
      "\n\nStamps carry symbols. What story do your symbols tell together?"
    else
      ""
  codeReference ++ nudge ++ symbols ++ (boost? s.step s.repeating).getD ""

def drawingUser (s : Scene) : String :=
  let pen := if s.cursor.penDown then "DOWN" else "UP"
  let overlay := s.overlay.getD ""
  s!"Position: X{s.cursor.x} Y{s.cursor.y} | Pen: {pen} | Color: {s.cursor.color.name} | " ++
    s!"Tool: {s.cursor.tool.name} | Mood: {s.emotion}\n" ++
    s!"Canvas view:\n{s.vision}{overlay}\n\nCreate art! Output codes:"

def drawing (s : Scene) : Request where
  purpose := .drawing
  prompt := wrap (drawingSystem s) (drawingUser s)
  maxTokens := if s.turbo then 180 else 100
  temperature := drawingTemperature s.painted
  topP := usualTopP
  stop := usualStops ++ ["\n\n"]

end Request

end Atelier
