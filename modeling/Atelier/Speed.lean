import Atelier.Mood

/-!
The pace of the studio. Between two ticks there is a delay: a fixed one, the shortest one in turbo,
that of a chosen level for a while after it was chosen, or else one after the mood.
-/

namespace Atelier

inductive Pace
  | instant
  | fast
  | normal
  | slow
  | verySlow
deriving DecidableEq, Repr

namespace Pace

def all : List Pace := [instant, fast, normal, slow, verySlow]

def name : Pace → String
  | instant  => "instant"
  | fast     => "fast"
  | normal   => "normal"
  | slow     => "slow"
  | verySlow => "very_slow"

def ofName? (s : String) : Option Pace :=
  all.find? (·.name == s)

theorem ofName?_name (p : Pace) : ofName? p.name = some p := by
  cases p <;> decide

def delay : Pace → Nat
  | instant  => 5
  | fast     => 30
  | normal   => 80
  | slow     => 200
  | verySlow => 400

-- The first and the last level are their own neighbours.
def faster : Pace → Pace
  | instant  => instant
  | fast     => instant
  | normal   => fast
  | slow     => normal
  | verySlow => slow

def slower : Pace → Pace
  | instant  => fast
  | fast     => normal
  | normal   => slow
  | slow     => verySlow
  | verySlow => verySlow

end Pace

structure Speed where
  pace : Pace
  /-- Delays for which the chosen pace is still in effect. -/
  remaining : Nat
  turbo : Bool
deriving DecidableEq

namespace Speed

def ofPace (p : Pace) : Speed := ⟨p, 0, false⟩

def initial : Speed := ofPace .normal

/-- Delays that a chosen pace lasts. -/
def duration : Nat := 20

def choose (s : Speed) (p : Pace) : Speed :=
  { s with pace := p, remaining := duration }

def faster (s : Speed) : Speed := s.choose s.pace.faster

def slower (s : Speed) : Speed := s.choose s.pace.slower

def toggleTurbo (s : Speed) : Speed := { s with turbo := !s.turbo }

def moodDelay (m : Mood) : Nat :=
  if m.isEnergetic then 15 else if m.isCalm then 60 else 30

/-- The delay before the next tick in milliseconds. -/
def currentDelay (s : Speed) (fixed : Option Nat) (m : Mood) : Nat :=
  match fixed with
  | some ms => ms
  | none =>
    if s.turbo then 5
    else if s.remaining > 0 then s.pace.delay
    else moodDelay m

/-- The delay before the next tick, and the speed after it. Only a delay of the chosen pace uses up
some of that pace's time. -/
def nextDelay (s : Speed) (fixed : Option Nat) (m : Mood) : Nat × Speed :=
  (s.currentDelay fixed m,
    if fixed.isNone ∧ s.turbo = false then { s with remaining := s.remaining - 1 } else s)

end Speed

end Atelier
