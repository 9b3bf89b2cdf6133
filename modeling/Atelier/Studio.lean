import Atelier.Example
import Atelier.Scan
import Atelier.Speed
import Atelier.Tone
import Atelier.View

/-!
Cycles of drawing. A cycle applies the tokens of one answer to the studio: first its directives, then
its other tokens, each in their order. An observation among the directives ends the cycle, and a pause
for thinking does nothing at all.
-/

namespace Atelier

/-- All that a cycle may change. -/
structure Studio where
  canvas : Canvas
  speed : Speed
  view : ViewMode
  template : Option Template
  random : Random
  /-- The pitch of the next sound, from this cycle or an earlier one. -/
  pitch : Option Pitch

inductive Outcome
  | completed
  | thinkPause
  | observation (d : Directive) (text : String)
  | empty
deriving DecidableEq

/-- The marks that a cycle leaves. -/
structure Marks where
  painted : Nat
  tally : Tally
  /-- Whether a move with the pen down changed the position. -/
  drew : Bool
  tones : List Tone

def Marks.none : Marks := ⟨0, .empty, false, []⟩

/-- The record of a cycle. -/
structure Cycle where
  outcome : Outcome
  tokens : List Token
  marks : Marks
  /-- The picture that the last clearing removed. -/
  archived : Option Raster

namespace Cycle

def code (c : Cycle) : String :=
  String.ofList (Token.render c.tokens)

def summary (c : Cycle) : String :=
  Token.summary c.tokens

def isCompleted (c : Cycle) : Bool :=
  c.outcome = .completed

/-- Pauses and observations count as skipped turns. -/
def isSkip (c : Cycle) : Bool :=
  match c.outcome with
  | .thinkPause | .observation .. => true
  | _ => false

/-- A cycle that leaves nothing behind. -/
def idle (outcome : Outcome) (ts : List Token) : Cycle :=
  ⟨outcome, ts, .none, none⟩

end Cycle

namespace Studio

/-- What a directive lets the model see. -/
def observation? (s : Studio) : Directive → Option String
  | .lookAround =>
    some ((View.window s.canvas s.view true).text ++ "\n\n" ++ (Overview.ofRaster s.canvas.raster).text)
  | .fullCanvas => some (View.compressed s.canvas).text
  | .examples => some Example.guide
  | _ => none

def withZoom (s : Studio) (z : Zoom) : Checked Studio := do
  let (canvas, _) ← s.canvas.zoom z
  return { s with canvas := canvas }

def withTemplate (s : Studio) (d : Difficulty) : Studio :=
  let (template, random) := Template.pick d s.random
  { s with template := template, random := random }

/-- Carries out a directive. Observations change nothing. -/
def direct (s : Studio) : Directive → Checked Studio
  | .zoomOut     => s.withZoom .smaller
  | .zoomIn      => s.withZoom .larger
  | .lookAround  => return s
  | .fullCanvas  => return s
  | .examples    => return s
  | .center      => return { s with canvas := s.canvas.center }
  | .normalView  => return { s with view := .normal }
  | .densityView => return { s with view := .density }
  | .shapeView   => return { s with view := .shape }
  | .clearAll    => return { s with canvas := s.canvas.clear.center }
  | .fillCanvas  => return { s with canvas := s.canvas.fill }
  | .faster      => return { s with speed := s.speed.faster }
  | .slower      => return { s with speed := s.speed.slower }
  | .template d  => return s.withTemplate d
  | .templateOff => return { s with template := none }
  | .useTool t   => return { s with canvas := s.canvas.setTool t }

/-- The studio after some directives, the picture that the last clearing among them removed, and the
observation that has ended them. -/
structure Directed where
  studio : Studio
  archived : Option Raster
  observed : Option (Directive × String)

def directAll (s : Studio) (archived : Option Raster) : List Directive → Checked Directed
  | [] => return ⟨s, archived, none⟩
  | d :: ds =>
    match s.observation? d with
    | some text => return ⟨s, archived, some (d, text)⟩
    | none => do
      let archived := if d = .clearAll then some s.canvas.raster else archived
      let s ← s.direct d
      s.directAll archived ds

/-- Carries out a token that is not a directive. -/
def act (s : Studio) (m : Marks) : Token → Checked (Studio × Marks)
  | .move d => do
    let (canvas, outcome) ← s.canvas.move d
    let s := { s with canvas := canvas }
    if outcome.moved && canvas.cursor.penDown then
      let n := outcome.painted
      return (s, { m with
        drew := true, painted := m.painted + n, tally := m.tally.add canvas.cursor.color n })
    else
      return (s, m)
  | .penUp => return ({ s with canvas := s.canvas.setPen false }, m)
  | .penDown => return ({ s with canvas := s.canvas.setPen true }, m)
  | .color c => return ({ s with canvas := s.canvas.setColor c }, m)
  | .pitch p => return ({ s with pitch := some p }, m)
  | .sound c => return ({ s with pitch := none }, { m with tones := m.tones ++ (Tone.ofChar? c s.pitch).toList })
  | .directive _ => return (s, m)
  | .thinkPause => return (s, m)

def actAll (s : Studio) (ts : List Token) : Checked (Studio × Marks) :=
  ts.foldlM (fun (s, m) t => s.act m t) (s, Marks.none)

/-- Runs one cycle. -/
def run (s : Studio) (ts : List Token) : Checked (Studio × Cycle) :=
  if ts.isEmpty then
    return (s, .idle .empty ts)
  else if ts.contains .thinkPause then
    return (s, .idle .thinkPause ts)
  else do
    let directed ← s.directAll none (ts.filterMap Token.directive?)
    match directed.observed with
    | some (d, text) =>
      return (directed.studio, { Cycle.idle (.observation d text) ts with archived := directed.archived })
    | none =>
      let (s, marks) ← directed.studio.actAll ts
      return (s, ⟨.completed, ts, marks, directed.archived⟩)

end Studio

end Atelier
