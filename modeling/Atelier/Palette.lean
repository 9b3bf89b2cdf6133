/-!
The fixed palette. A cell holds an `Rgb` value; it counts as one of the palette's colours only when
it matches that colour exactly.
-/

namespace Atelier

structure Rgb where
  r : UInt8
  g : UInt8
  b : UInt8
deriving DecidableEq, Repr, Inhabited

namespace Rgb

def black : Rgb := ⟨0, 0, 0⟩

def isBlack (c : Rgb) : Bool :=
  c.r == 0 && c.g == 0 && c.b == 0

theorem isBlack_iff {c : Rgb} : c.isBlack = true ↔ c = black := by
  cases c
  simp [isBlack, black, and_assoc]

end Rgb

inductive Color
  | red
  | orange
  | yellow
  | green
  | cyan
  | blue
  | purple
  | pink
  | white
  | gray
  | black
  | brown
  | magenta
  | lime
  | navy
deriving DecidableEq, Repr, Inhabited

namespace Color

-- The order of the palette is the order of every list of colours that is shown.
def all : List Color :=
  [red, orange, yellow, green, cyan, blue, purple, pink, white, gray, black, brown, magenta, lime,
    navy]

theorem mem_all (c : Color) : c ∈ all := by
  cases c <;> decide

def name : Color → String
  | red     => "red"
  | orange  => "orange"
  | yellow  => "yellow"
  | green   => "green"
  | cyan    => "cyan"
  | blue    => "blue"
  | purple  => "purple"
  | pink    => "pink"
  | white   => "white"
  | gray    => "gray"
  | black   => "black"
  | brown   => "brown"
  | magenta => "magenta"
  | lime    => "lime"
  | navy    => "navy"

def rgb : Color → Rgb
  | red     => ⟨255, 0, 0⟩
  | orange  => ⟨255, 150, 0⟩
  | yellow  => ⟨255, 255, 0⟩
  | green   => ⟨0, 255, 0⟩
  | cyan    => ⟨0, 255, 255⟩
  | blue    => ⟨0, 100, 255⟩
  | purple  => ⟨200, 0, 255⟩
  | pink    => ⟨255, 192, 203⟩
  | white   => ⟨255, 255, 255⟩
  | gray    => ⟨128, 128, 128⟩
  | black   => ⟨0, 0, 0⟩
  | brown   => ⟨139, 69, 19⟩
  | magenta => ⟨255, 0, 255⟩
  | lime    => ⟨50, 205, 50⟩
  | navy    => ⟨0, 0, 128⟩

/-- The character that stands for a colour in the views of the canvas. -/
def glyph : Color → Char
  | red     => 'R'
  | orange  => 'O'
  | yellow  => 'Y'
  | green   => 'G'
  | cyan    => 'C'
  | blue    => 'B'
  | purple  => 'V'
  | pink    => 'P'
  | white   => '*'
  | gray    => '/'
  | black   => '·'
  | brown   => 'W'
  | magenta => 'M'
  | lime    => 'L'
  | navy    => 'N'

def ofName? (s : String) : Option Color :=
  all.find? (·.name == s)

/-- The colour that a value matches exactly, if any. -/
def classify (v : Rgb) : Option Color :=
  all.find? (·.rgb == v)

theorem ofName?_name (c : Color) : ofName? c.name = some c := by
  cases c <;> decide

theorem classify_rgb (c : Color) : classify c.rgb = some c := by
  cases c <;> decide

theorem rgb_eq_of_classify {v : Rgb} {c : Color} (h : classify v = some c) : c.rgb = v := by
  simpa using List.find?_some h

theorem classify_eq_some_iff {v : Rgb} {c : Color} : classify v = some c ↔ v = c.rgb :=
  ⟨fun h => (rgb_eq_of_classify h).symm, fun h => h ▸ classify_rgb c⟩

theorem classify_eq_none_iff {v : Rgb} : classify v = none ↔ ∀ c : Color, v ≠ c.rgb := by
  simp [Option.eq_none_iff_forall_ne_some, classify_eq_some_iff]

theorem rgb_injective {c d : Color} (h : c.rgb = d.rgb) : c = d := by
  have hc := classify_rgb c
  rw [h, classify_rgb] at hc
  exact (Option.some.inj hc).symm

end Color

/-- The character of a cell: that of its colour, or a question mark outside the palette. -/
def Rgb.glyph (v : Rgb) : Char :=
  (Color.classify v).elim '?' Color.glyph

theorem Rgb.glyph_rgb (c : Color) : c.rgb.glyph = c.glyph := by
  simp [Rgb.glyph, Color.classify_rgb]

end Atelier
