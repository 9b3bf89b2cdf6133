import Atelier.Instant

/-!
The daily routine: drawing, a check-in that offers a choice, a chat break and a rest with its sleep
phases. Nothing here reads a clock; the time is an argument of every decision.
-/

namespace Atelier

inductive SleepPhase
  | light
  | rem
  | waking
deriving DecidableEq, Repr

namespace SleepPhase

def all : List SleepPhase := [light, rem, waking]

def name : SleepPhase → String
  | light  => "light"
  | rem    => "rem"
  | waking => "waking"

def ofName? (s : String) : Option SleepPhase :=
  all.find? (·.name == s)

theorem ofName?_name (p : SleepPhase) : ofName? p.name = some p := by
  cases p <;> decide

/-- The phase after resting for a while: light for 20 minutes, then dreaming until minute 40. -/
def ofElapsed (elapsed : Span) : SleepPhase :=
  if elapsed < Span.ofSeconds 1200 then light
  else if elapsed < Span.ofSeconds 2400 then rem
  else waking

end SleepPhase

inductive Mode
  | drawing
  | awaitingChoice
  | chatting
  | resting (phase : SleepPhase)
deriving DecidableEq, Repr

/-- Modes without the sleep phase, which documents keep apart. -/
inductive ModeKind
  | drawing
  | awaitingChoice
  | chatting
  | resting
deriving DecidableEq, Repr

namespace ModeKind

def all : List ModeKind := [drawing, awaitingChoice, chatting, resting]

def name : ModeKind → String
  | drawing        => "drawing"
  | awaitingChoice => "awaiting_choice"
  | chatting       => "chatting"
  | resting        => "resting"

def ofName? (s : String) : Option ModeKind :=
  all.find? (·.name == s)

theorem ofName?_name (k : ModeKind) : ofName? k.name = some k := by
  cases k <;> decide

end ModeKind

namespace Mode

def all : List Mode :=
  [drawing, awaitingChoice, chatting, resting .light, resting .rem, resting .waking]

def kind : Mode → ModeKind
  | drawing        => .drawing
  | awaitingChoice => .awaitingChoice
  | chatting       => .chatting
  | resting _      => .resting

/-- The sleep phase of a rest, and light sleep outside of one. -/
def phase : Mode → SleepPhase
  | resting p => p
  | _ => .light

def ofKind (p : SleepPhase) : ModeKind → Mode
  | .drawing        => drawing
  | .awaitingChoice => awaitingChoice
  | .chatting       => chatting
  | .resting        => resting p

theorem ofKind_kind (m : Mode) : ofKind m.phase m.kind = m := by
  cases m <;> rfl

/-- The changes of mode that the routine is made of. Sleep only goes forward. -/
def canTransition : Mode → Mode → Bool
  | drawing, awaitingChoice => true
  | awaitingChoice, drawing => true
  | awaitingChoice, chatting => true
  | awaitingChoice, resting .light => true
  | chatting, drawing => true
  | resting .light, resting .rem => true
  | resting .light, resting .waking => true
  | resting .rem, resting .waking => true
  | resting _, awaitingChoice => true
  | a, b => a == b

end Mode

inductive Choice
  | chat
  | dream
  | draw
deriving DecidableEq, Repr

namespace Choice

def all : List Choice := [chat, dream, draw]

def name : Choice → String
  | chat  => "chat"
  | dream => "dream"
  | draw  => "draw"

/-- The answer that chooses. -/
def word : Choice → List Char
  | chat  => ['C', 'H', 'A', 'T']
  | dream => ['D', 'R', 'E', 'A', 'M']
  | draw  => ['D', 'R', 'A', 'W']

-- No character outside ASCII has a capital that is one of the words' letters and nothing more.
/-- An answer chooses if it is one of the words, but for blanks around it and letter case. -/
def ofAnswer? (answer : String) : Option Choice :=
  let cs := (Text.trimChars answer.toList).map Char.toUpper
  all.find? (·.word == cs)

end Choice

inductive ChoiceOutcome
  | accepted (c : Choice)
  | invalid (attempts : Nat)
  /-- Too many invalid answers; drawing goes on. -/
  | defaulted
deriving DecidableEq, Repr

/-- What is to be done in a mode. -/
inductive Activity
  | draw
  | askChoice
  | chatOpening
  | chatFollowUp
  | chatIdle
  | dream (phase : SleepPhase)
deriving DecidableEq, Repr

/-- Changes that only the time brings about. -/
inductive Transition
  | checkIn
  | chatEnded
  | phaseChanged (phase : SleepPhase)
  | restEnded
deriving DecidableEq, Repr

structure Routine where
  checkInInterval : Span
  breakDuration : Span
  restDuration : Span
  chatFollowUp : Span
  maxRetries : Nat
deriving DecidableEq

def Routine.standard : Routine where
  checkInInterval := Span.ofSeconds 2700
  breakDuration := Span.ofSeconds 1200
  restDuration := Span.ofSeconds 3600
  chatFollowUp := Span.ofSeconds 600
  maxRetries := 5

structure Schedule where
  routine : Routine
  mode : Mode
  modeStart : Instant
  phaseStart : Instant
  lastCheckIn : Instant
  chatMessages : Nat
  invalidChoices : Nat
deriving DecidableEq

namespace Schedule

/-- What is kept of a schedule while the program does not run. -/
structure Snapshot where
  mode : ModeKind
  modeStart : Instant
  phase : SleepPhase
  phaseStart : Instant
  lastCheckIn : Instant
deriving DecidableEq

def start (routine : Routine) (now : Instant) : Schedule :=
  ⟨routine, .drawing, now, now, now, 0, 0⟩

def restore (routine : Routine) (s : Snapshot) : Schedule :=
  ⟨routine, .ofKind s.phase s.mode, s.modeStart, s.phaseStart, s.lastCheckIn, 0, 0⟩

def snapshot (s : Schedule) : Snapshot :=
  ⟨s.mode.kind, s.modeStart, s.mode.phase, s.phaseStart, s.lastCheckIn⟩

def enter (s : Schedule) (m : Mode) (now : Instant) : Schedule :=
  { s with mode := m, modeStart := now }

/-- Makes the change that is due at a time, if there is one. -/
def poll (s : Schedule) (now : Instant) : Schedule × Option Transition :=
  match s.mode with
  | .drawing =>
    if now.since s.lastCheckIn ≥ s.routine.checkInInterval then
      ({ s with invalidChoices := 0 }.enter .awaitingChoice now, some .checkIn)
    else
      (s, none)
  | .chatting =>
    if now.since s.modeStart ≥ s.routine.breakDuration then
      ({ s with lastCheckIn := now }.enter .drawing now, some .chatEnded)
    else
      (s, none)
  | .resting phase =>
    if now.since s.modeStart ≥ s.routine.restDuration then
      ({ s with invalidChoices := 0 }.enter .awaitingChoice now, some .restEnded)
    else
      let next := SleepPhase.ofElapsed (now.since s.modeStart)
      if next = phase then
        (s, none)
      else
        ({ s with mode := .resting next, phaseStart := now }, some (.phaseChanged next))
  | .awaitingChoice => (s, none)

def activity (s : Schedule) (now : Instant) : Activity :=
  match s.mode with
  | .drawing => .draw
  | .awaitingChoice => .askChoice
  | .chatting =>
    match s.chatMessages with
    | 0 => .chatOpening
    | 1 => if now.since s.modeStart ≥ s.routine.chatFollowUp then .chatFollowUp else .chatIdle
    | _ => .chatIdle
  | .resting phase => .dream phase

def messageSent (s : Schedule) : Schedule :=
  { s with chatMessages := s.chatMessages + 1 }

def choose (s : Schedule) (c : Choice) (now : Instant) : Schedule :=
  let s := { s with invalidChoices := 0 }
  match c with
  | .chat => { s with chatMessages := 0 }.enter .chatting now
  | .dream => { s with phaseStart := now }.enter (.resting .light) now
  | .draw => { s with lastCheckIn := now }.enter .drawing now

/-- Takes an answer to a check-in. Outside of one, answers count for nothing. -/
def answer (s : Schedule) (text : String) (now : Instant) : Schedule × ChoiceOutcome :=
  if s.mode ≠ .awaitingChoice then
    (s, .invalid 0)
  else
    match Choice.ofAnswer? text with
    | some c => (s.choose c now, .accepted c)
    | none =>
      let attempts := s.invalidChoices + 1
      if attempts ≥ s.routine.maxRetries then
        (s.choose .draw now, .defaulted)
      else
        ({ s with invalidChoices := attempts }, .invalid attempts)

@[simp]
theorem mode_enter (s : Schedule) (m : Mode) (now : Instant) : (s.enter m now).mode = m := rfl

theorem mode_restore_snapshot (r : Routine) (s : Schedule) :
    (restore r s.snapshot).mode = s.mode :=
  Mode.ofKind_kind s.mode

end Schedule

end Atelier
