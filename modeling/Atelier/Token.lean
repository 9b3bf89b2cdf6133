import Atelier.Template
import Atelier.Tool

/-!
Tokens: what an answer of the model can ask for. Every token has one literal, and no literal is the
beginning of another, so a text of literals can be cut in one way only.
-/

namespace Atelier

inductive Pitch
  /-- One octave down. -/
  | low
  /-- One octave up. -/
  | high
deriving DecidableEq, Repr

def Pitch.literal : Pitch → List Char
  | low  => ['+', '+']
  | high => ['-', '-']

inductive Directive
  | zoomOut
  | zoomIn
  | lookAround
  | fullCanvas
  | center
  | normalView
  | densityView
  | shapeView
  | clearAll
  | fillCanvas
  | examples
  | faster
  | slower
  | template (d : Difficulty)
  | templateOff
  | useTool (t : Tool)
deriving DecidableEq, Repr

namespace Directive

def all : List Directive :=
  [zoomOut, zoomIn, lookAround, fullCanvas, center, normalView, densityView, shapeView, clearAll,
    fillCanvas, examples, faster, slower] ++ Difficulty.all.map template ++ [templateOff] ++
    Tool.all.map useTool

theorem mem_all (d : Directive) : d ∈ all := by
  cases d <;> simp [all, Difficulty.mem_all, Tool.mem_all]

def literal : Directive → String
  | zoomOut     => "zoom_out"
  | zoomIn      => "zoom_in"
  | lookAround  => "look_around"
  | fullCanvas  => "full_canvas"
  | center      => "center"
  | normalView  => "normal_view"
  | densityView => "density_view"
  | shapeView   => "shape_view"
  | clearAll    => "clear_all"
  | fillCanvas  => "fill_canvas"
  | examples    => "examples"
  | faster      => "faster"
  | slower      => "slower"
  | template .easy   => "template_easy"
  | template .medium => "template_medium"
  | template .hard   => "template_hard"
  | templateOff => "template_off"
  | useTool t   => t.name

/-- Observations end the cycle once they have been made. -/
def isObservation : Directive → Bool
  | lookAround | fullCanvas | examples => true
  | _ => false

end Directive

inductive Token
  | move (d : Direction)
  | penUp
  | penDown
  | color (c : Color)
  | sound (c : Char)
  | pitch (p : Pitch)
  | directive (d : Directive)
  | thinkPause
deriving DecidableEq, Repr

namespace Token

/-- The characters that stand for sounds, from the lowest to the highest. -/
def soundChars : List Char :=
  ['!', '@', '#', '$', '%', '^', '&', '*']

def countUp : List Char :=
  ['0', '1', '2', '3', '4', '5', '6', '7', '8', '9']

/-- Runs of digits that count up or down. -/
def countingRuns : List (List Char) :=
  [countUp, countUp.drop 1, countUp.reverse]

def literal : Token → List Char
  | move d      => [d.digit]
  | penUp       => ['4']
  | penDown     => ['5']
  | color c     => c.name.toList
  | sound c     => [c]
  | pitch p     => p.literal
  | directive d => d.literal.toList
  | thinkPause  => countUp

/-- The tokens that a text can hold, words first. -/
def vocabulary : List Token :=
  Directive.all.map directive ++ Color.all.map color ++ [pitch .low, pitch .high, penUp, penDown] ++
    soundChars.map sound ++ Direction.all.map move

def directive? : Token → Option Directive
  | directive d => some d
  | _ => none

def isDirective (t : Token) : Bool :=
  t.directive?.isSome

def render (ts : List Token) : List Char :=
  ts.flatMap literal

/-- Consecutive equal tokens, with their numbers. -/
def runs : List Token → List (Token × Nat)
  | [] => []
  | t :: ts =>
    match runs ts with
    | (u, n) :: rest => if u = t then (t, n + 1) :: rest else (t, 1) :: (u, n) :: rest
    | [] => [(t, 1)]

def runText (r : Token × Nat) : String :=
  let literal := String.ofList r.1.literal
  if r.2 > 1 then s!"{literal}×{r.2}" else literal

/-- The tokens as text, repetitions counted. -/
def summary (ts : List Token) : String :=
  " ".intercalate ((runs ts).map runText)

theorem literal_ne_nil (t : Token) : t.literal ≠ [] := by
  cases t with
  | color c => cases c <;> simp [literal, Color.name]
  | pitch p => cases p <;> simp [literal, Pitch.literal]
  | directive d =>
    cases d with
    | template d => cases d <;> simp [literal, Directive.literal]
    | useTool t => cases t <;> simp [literal, Directive.literal, Tool.name]
    | _ => simp [literal, Directive.literal]
  | _ => simp [literal, countUp]

@[simp]
theorem render_nil : render [] = [] := rfl

@[simp]
theorem render_cons (t : Token) (ts : List Token) : render (t :: ts) = t.literal ++ render ts := rfl

end Token

end Atelier
