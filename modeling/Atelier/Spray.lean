import Atelier.Footprint
import Atelier.Random

/-!
The spray tool. It asks a random source about every cell of a disk, once and row by row, and paints
the cells for which the answer is yes.
-/

namespace Atelier

/-- Where the spray's answers come from: a list of questions answered by a given rule (which may
depend on how many were asked before), or a stream of random words. -/
inductive Spray
  | scripted (answer : Nat → Float → Bool) (asked : Nat)
  | seeded (random : Random)

namespace Spray

def ask (p : Float) : Spray → Bool × Spray
  | scripted answer asked => (answer asked p, scripted answer (asked + 1))
  | seeded random =>
    let (yes, random) := random.flip p
    (yes, seeded random)

def radius : Int := 20

def reach : List Offset := Offset.disk radius

/-- Cells of the inner half of the disk are painted more often. -/
def chanceAt (o : Offset) : Float :=
  if o.norm2 ≤ (radius / 2) * (radius / 2) then 0.45 else 0.30

/-- Asks a source about offsets, one after another, and keeps those for which it says yes. -/
def sift (ask : Float → σ → Bool × σ) : List Offset → σ → List Offset × σ
  | [], s => ([], s)
  | o :: os, s =>
    let (yes, s) := ask (chanceAt o) s
    let (rest, s) := sift ask os s
    (if yes then o :: rest else rest, s)

def pick : List Offset → Spray → List Offset × Spray :=
  sift ask

/-- One application of the spray. -/
def cells (s : Spray) : List Offset × Spray :=
  pick reach s

theorem sift_sublist (ask : Float → σ → Bool × σ) (os : List Offset) (s : σ) :
    (sift ask os s).1.Sublist os := by
  induction os generalizing s with
  | nil => exact .slnil
  | cons o os ih =>
    simp only [sift]
    split
    · exact (ih _).cons_cons o
    · exact (ih _).cons o

theorem cells_sublist (s : Spray) : s.cells.1.Sublist reach :=
  sift_sublist ask reach s

end Spray

end Atelier
