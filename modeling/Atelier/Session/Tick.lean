import Atelier.Impression
import Atelier.Request.Chat
import Atelier.Request.Drawing
import Atelier.Request.Dream
import Atelier.Session

/-!
Ticks. A tick makes the change of mode that is due and then does what the mode asks for, with at most
one request to the model.
-/

namespace Atelier

/-- What a tick has led to. -/
inductive Event
  | drew (c : Cycle)
  | choice (o : ChoiceOutcome)
  | chat (message : String)
  | dreamed (d : Dream)
  | idle
  | generationFailed

namespace Session

/-- Steps between two overviews in the request for a drawing. -/
def overviewEvery : Nat := 50

/-- Steps between two evaluations of the mood. -/
def moodEvery : Nat := 50

def recentColorCount : Nat := 5

def recentCodeCount : Nat := 5

/-- Codes that a check-in counts the pixels of. -/
def pixelWindow : Nat := 100

/-- Asks the model. There may be no answer. -/
def ask (s : Session) (r : Request) : Option String × Session :=
  let (answer, model) := s.model.ask r
  (answer.toOption, { s with model := model })

def overview (s : Session) : Overview :=
  .ofRaster s.canvas.raster

def recentColors (s : Session) : List String :=
  (s.canvas.colors.recent recentColorCount).map Color.name

def influence (s : Session) (i : Influence) (amount : Float) : Session :=
  { s with mood := s.mood.influence i amount }

/-- What the model sees of the canvas before it draws. -/
def vision (s : Session) : String :=
  let near := (View.window s.canvas s.studio.view false).text
  if s.steps % overviewEvery = 0 then
    near ++ "\n\n" ++ s.overview.text ++ "\n\n" ++ (View.window s.canvas .normal true).text
  else
    near

def scene (s : Session) : Scene where
  cursor := s.canvas.cursor
  vision := s.vision
  overlay := s.studio.template.map Template.overlay
  emotion := s.mood.word
  step := s.steps
  repeating := s.memory.isRepeating
  skips := s.skips
  painted := s.canvas.raster.paintedCount
  turbo := s.studio.speed.turbo

/-- Keeps the picture that a cycle has cleared away. It does not matter whether that succeeds. -/
def archive (s : Session) (c : Cycle) (now : Instant) : Session :=
  match c.archived with
  | some r => (s.perform (Snapshot.write r (s.sidecar now))).2
  | none => s

def countSkip (s : Session) (c : Cycle) : Checked Session := do
  if c.isSkip then
    let skips ← Checked.nat64 (s.skips + 1)
    return { s with skips := skips }
  else
    return s

/-- A look around shows how much is covered, which leaves an impression. -/
def regard (s : Session) (c : Cycle) : Session :=
  match c.outcome with
  | .observation .lookAround _ => s.influence .artwork (Impression.ofArtwork s.overview.coverage)
  | _ => s

def codeMemory (s : Session) (c : Cycle) (now : Instant) : CodeMemory where
  code := c.code
  context := {
    emotion := s.mood.word
    x := s.canvas.cursor.x
    y := s.canvas.cursor.y
    color := s.canvas.cursor.color
    penDown := s.canvas.cursor.penDown
    pixelsDrawn := c.marks.painted
    tool := s.canvas.cursor.tool
  }
  timestamp := now

/-- A completed cycle is remembered, and its marks and tones leave impressions. -/
def remember (s : Session) (c : Cycle) (now : Instant) : Session :=
  if c.isCompleted then
    let s := { s with memory := s.memory.rememberCode (s.codeMemory c now) }
    let s := s.influence .creating (Impression.ofCreating c.marks.painted c.marks.tally.length)
    c.marks.tones.foldl (fun s t => s.influence .music (Impression.ofTone t.pitch)) s
  else
    s

/-- Ends a turn that began with a given cursor. -/
def endTurn (s : Session) (before : Cursor) : Checked Session := do
  let after := s.canvas.cursor
  let drew := after.penDown && (after.x != before.x || after.y != before.y)
  let draws ← Checked.nat32 (if drew then s.continuousDraws + 1 else 0)
  let steps ← Checked.nat64 (s.steps + 1)
  return { s with
    continuousDraws := draws
    lastTurnColor := some after.color
    steps := steps
  }

def evidence (s : Session) : Mood.Evidence where
  continuousDraws := s.continuousDraws
  distinctColors := (Color.all.filter s.canvas.colors.items.contains).length
  skips := s.skips
  turbo := s.studio.speed.turbo

def reconsider (s : Session) : Session :=
  if s.steps % moodEvery = 0 then { s with mood := (s.mood.evaluate s.evidence).1 } else s

/-- Saves after every so many steps. It does not matter whether that succeeds. -/
def saveIfDue (s : Session) (now : Instant) : Session :=
  if s.saveEverySteps > 0 ∧ s.steps % s.saveEverySteps = 0 then (s.save now).2 else s

/-- Takes an answer as the code of one cycle. -/
def draw (s : Session) (raw : String) (now : Instant) : Checked (Session × Cycle) := do
  let before := s.canvas.cursor
  let (studio, c) ← s.studio.run (Token.scan raw)
  let s := { s with studio := studio }.archive c now
  let s ← s.countSkip c
  let s := (s.regard c).remember c now
  let s ← s.endTurn before
  return (s.reconsider.saveIfDue now, c)

def drawingTurn (s : Session) (now : Instant) : Checked (Session × Event) := do
  match s.ask (.drawing s.scene) with
  | (some raw, s) =>
    let (s, c) ← s.draw raw now
    return (s, .drew c)
  | (none, s) => return (s, .generationFailed)

def choiceTurn (s : Session) (now : Instant) : Checked (Session × Event) := do
  let pixels ← s.memory.recentPixels pixelWindow
  match s.ask (.checkIn s.mood.word s.mood.energy pixels s.overview.text s.recentColors) with
  | (some answer, s) =>
    let (schedule, outcome) := s.schedule.answer answer now
    let s := { s with schedule := schedule }
    if outcome = .accepted .dream then
      return ({ s with memory := s.memory.forgetTonight }, .choice outcome)
    else
      return (s, .choice outcome)
  | (none, s) => return (s, .generationFailed)

def chatTurn (s : Session) (r : Request) : Session × Event :=
  match s.ask r with
  | (some answer, s) =>
    let message := Text.trim answer
    let s := { s with schedule := s.schedule.messageSent, lastMessage := some message }
    (s.influence .chat (Impression.ofMessage message), .chat message)
  | (none, s) => (s, .generationFailed)

def openingRequest (s : Session) : Request :=
  .chatOpening s.mood.word s.overview.text s.recentColors s.canvas.cursor.tool.name

def dreamMatter (s : Session) : DreamMatter where
  emotion := s.mood.word
  colors := s.recentColors
  codes := s.memory.recentCodes recentCodeCount
  overview := s.overview.text
  dreams := s.memory.tonight.map (·.content)

/-- A dream needs an answer that is not blank. -/
def dreamTurn (s : Session) (phase : SleepPhase) (now : Instant) : Session × Event :=
  let matter := s.dreamMatter
  match s.ask (.dream phase matter) with
  | (some answer, s) =>
    let content := Text.trim answer
    if content.isEmpty then
      (s, .idle)
    else
      let d : Dream := ⟨content, phase, now, matter.overview⟩
      let s := { s with memory := s.memory.recordDream d, lastMessage := some content }
      (if phase = .rem then s.influence .dreams Impression.ofDream else s, .dreamed d)
  | (none, s) => (s, .generationFailed)

/-- What a change of mode brings about. The dreams of a rest are sorted out when it ends. -/
def follow (s : Session) : Transition → Session
  | .checkIn => s
  | .phaseChanged _ => s
  | .chatEnded => { s with lastMessage := none }
  | .restEnded =>
    let (memory, _, random) := s.memory.retain s.retention s.studio.random
    let s := { s with memory := memory, studio := { s.studio with random := random } }
    (s.perform s.saveMemories).2

/-- Makes the change of mode that is due. -/
def advance (s : Session) (now : Instant) : Session :=
  let (schedule, transition) := s.schedule.poll now
  let s := { s with schedule := schedule }
  transition.elim s s.follow

def tick (s : Session) (now : Instant) : Checked (Session × Event) :=
  let s := s.advance now
  match s.schedule.activity now with
  | .draw => s.drawingTurn now
  | .askChoice => s.choiceTurn now
  | .chatOpening => return s.chatTurn s.openingRequest
  | .chatFollowUp => return s.chatTurn (.chatFollowUp s.mood.word)
  | .chatIdle => return (s, .idle)
  | .dream phase => return s.dreamTurn phase now

/-- A tick at each of some times. -/
def run (s : Session) (times : List Instant) : Checked (Session × List Event) :=
  times.foldlM (fun (s, events) now => do
    let (s, e) ← s.tick now
    return (s, events ++ [e])) (s, [])

end Session

end Atelier
