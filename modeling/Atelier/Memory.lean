import Atelier.History
import Atelier.Palette
import Atelier.Random
import Atelier.Schedule
import Atelier.Tool

/-!
What the studio remembers: the codes that it has drawn, and its dreams. Dreams of the current rest are
kept apart; when the rest ends, a random selection of them joins the long-term dreams.
-/

namespace Atelier

/-- The circumstances of a code: mood and cursor after it was drawn, and how much it painted. -/
structure CodeContext where
  emotion : String
  x : Int
  y : Int
  color : Color
  penDown : Bool
  pixelsDrawn : Nat
  tool : Tool
deriving DecidableEq

structure CodeMemory where
  code : String
  context : CodeContext
  timestamp : Instant
deriving DecidableEq

structure Dream where
  content : String
  phase : SleepPhase
  timestamp : Instant
  /-- Overview of the canvas at the time of the dream. -/
  overview : String
deriving DecidableEq

/-- How many dreams of a rest are kept. -/
inductive Retention
  | retainAll
  | fraction (share : Float)
deriving BEq

def Retention.sampleSize (available : Nat) : Retention → Nat
  | retainAll => available
  | fraction share => roundNat (Float.ofNat available * clampFloat 0.0 1.0 share)

structure Memory where
  codes : History CodeMemory
  dreams : History Dream
  /-- Dreams of the current rest. -/
  tonight : List Dream

namespace Memory

def codeLimit : Nat := 1000

def dreamLimit : Nat := 100

def restore (codes : List CodeMemory) (dreams : List Dream) : Memory :=
  ⟨.ofList codeLimit codes, .ofList dreamLimit dreams, []⟩

def empty : Memory := restore [] []

def rememberCode (m : Memory) (c : CodeMemory) : Memory :=
  { m with codes := m.codes.push c }

def recordDream (m : Memory) (d : Dream) : Memory :=
  { m with tonight := m.tonight ++ [d] }

def forgetTonight (m : Memory) : Memory :=
  { m with tonight := [] }

/-- Moves a selection of tonight's dreams to the long-term ones, forgets the others and tells how many
were moved. -/
def retain (m : Memory) (policy : Retention) (r : Random) : Memory × Nat × Random :=
  let (kept, r) := r.sample (policy.sampleSize m.tonight.length) m.tonight
  ({ m with dreams := m.dreams.extend kept, tonight := [] }, kept.length, r)

/-- The latest `n` codes, oldest first. -/
def recentCodes (m : Memory) (n : Nat) : List String :=
  (m.codes.recent n).map (·.code)

/-- Whether the last three codes are equal. -/
def isRepeating (m : Memory) : Bool :=
  match m.recentCodes 3 with
  | [a, b, c] => a == b && b == c
  | _ => false

/-- Pixels that the latest `n` codes drew, summed up in a word of 64 bits. -/
def recentPixels (m : Memory) (n : Nat) : Checked Nat :=
  (m.codes.recent n).foldlM (fun sum c => Checked.nat64 (sum + c.context.pixelsDrawn)) 0

end Memory

end Atelier
