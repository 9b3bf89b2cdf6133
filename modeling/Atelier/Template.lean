import Atelier.Palette
import Atelier.Random

/-!
Paint-by-number templates: named figures with a colour for each part, in three difficulties. They are
offered as a guide and bind nobody.
-/

namespace Atelier

inductive Difficulty
  | easy
  | medium
  | hard
deriving DecidableEq, Repr

namespace Difficulty

def all : List Difficulty := [easy, medium, hard]

theorem mem_all (d : Difficulty) : d ∈ all := by
  cases d <;> decide

def name : Difficulty → String
  | easy   => "easy"
  | medium => "medium"
  | hard   => "hard"

end Difficulty

structure Template where
  difficulty : Difficulty
  name : String
  parts : List (String × Color)
deriving DecidableEq

namespace Template

def ofDifficulty : Difficulty → List Template
  | .easy => [
      ⟨.easy, "circle", [("positions", .blue)]⟩,
      ⟨.easy, "square", [("positions", .red)]⟩,
      ⟨.easy, "cross", [("positions", .green)]⟩]
  | .medium => [
      ⟨.medium, "flower",
        [("center", .yellow), ("petals", .red), ("stem", .green), ("leaves", .green)]⟩,
      ⟨.medium, "star", [("points", .yellow), ("lines", .yellow)]⟩,
      ⟨.medium, "heart",
        [("left_curve", .purple), ("right_curve", .purple), ("bottom", .purple), ("fill", .purple)]⟩]
  | .hard => [
      ⟨.hard, "house", [("roof", .red), ("walls", .white), ("door", .black), ("windows", .cyan)]⟩,
      ⟨.hard, "tree", [("trunk", .black), ("canopy", .green)]⟩,
      ⟨.hard, "butterfly",
        [("body", .blue), ("left_wing_top", .orange), ("left_wing_bottom", .yellow),
          ("right_wing_top", .orange), ("right_wing_bottom", .yellow)]⟩]

def pick (d : Difficulty) (r : Random) : Option Template × Random :=
  r.choose? (ofDifficulty d)

/-- The text that offers a template in a drawing prompt. -/
def overlay (t : Template) : String :=
  let colors := ", ".intercalate (t.parts.map fun (part, c) => s!"{part}={c.name}")
  s!"\n\n[PAINT-BY-NUMBER TEMPLATE: {t.name.toUpper} ({t.difficulty.name})]\n" ++
    s!"Suggested pattern to follow! Use these colors:\n{colors}\n" ++
    "Template guides your art - follow or improvise!"

end Template

end Atelier
