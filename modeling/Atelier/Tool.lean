/-!
Drawing tools and the four directions of movement.
-/

namespace Atelier

inductive Tool
  | pen
  | brush
  | largeBrush
  | largerBrush
  | spray
  | star
  | cross
  | circle
  | diamond
  | flower
deriving DecidableEq, Repr

namespace Tool

instance : Inhabited Tool := ⟨brush⟩

def all : List Tool :=
  [pen, brush, largeBrush, largerBrush, spray, star, cross, circle, diamond, flower]

theorem mem_all (t : Tool) : t ∈ all := by
  cases t <;> decide

def name : Tool → String
  | pen         => "pen"
  | brush       => "brush"
  | largeBrush  => "large_brush"
  | largerBrush => "larger_brush"
  | spray       => "spray"
  | star        => "star"
  | cross       => "cross"
  | circle      => "circle"
  | diamond     => "diamond"
  | flower      => "flower"

def ofName? (s : String) : Option Tool :=
  all.find? (·.name == s)

theorem ofName?_name (t : Tool) : ofName? t.name = some t := by
  cases t <;> decide

/-- Stamps leave a figure, the other tools a plain mark. -/
def isStamp : Tool → Bool
  | star | cross | circle | diamond | flower => true
  | _ => false

end Tool

inductive Direction
  | up
  | down
  | left
  | right
deriving DecidableEq, Repr

namespace Direction

def all : List Direction := [up, down, left, right]

theorem mem_all (d : Direction) : d ∈ all := by
  cases d <;> decide

def digit : Direction → Char
  | up    => '0'
  | down  => '1'
  | left  => '2'
  | right => '3'

def ofDigit? (c : Char) : Option Direction :=
  all.find? (·.digit == c)

theorem ofDigit?_digit (d : Direction) : ofDigit? d.digit = some d := by
  cases d <;> decide

def name : Direction → String
  | up    => "up"
  | down  => "down"
  | left  => "left"
  | right => "right"

-- Rows are counted downwards.
def dx : Direction → Int
  | left  => -1
  | right => 1
  | _     => 0

def dy : Direction → Int
  | up   => -1
  | down => 1
  | _    => 0

end Direction

end Atelier
