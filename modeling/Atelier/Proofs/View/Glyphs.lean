import Atelier.View
import Mathlib.Logic.Function.Basic

/-!
What the glyphs of a picture stand for. No two things share a glyph, so each of them can be read back.
-/

namespace Atelier

namespace View

-- A position without a cell, the cursor, or a cell with a colour of the palette or any other.
inductive Sign
  | wall
  | cursor (penDown : Bool)
  | unknown
  | color (k : Color)
deriving DecidableEq

namespace Sign

def all : List Sign :=
  [wall, cursor true, cursor false, unknown] ++ Color.all.map color

def glyph : Sign → Char
  | wall           => View.wall
  | cursor penDown => cursorGlyph penDown
  | unknown        => '?'
  | color k        => k.glyph

def ofGlyph? (g : Char) : Option Sign :=
  all.find? (·.glyph == g)

theorem ofGlyph?_glyph (s : Sign) : ofGlyph? s.glyph = some s := by
  cases s
  case wall => decide
  case cursor penDown => cases penDown <;> decide
  case unknown => decide
  case color k => cases k <;> decide

theorem glyph_injective : Function.Injective glyph := by
  intro s t h
  have hs := ofGlyph?_glyph s
  rw [h, ofGlyph?_glyph] at hs
  exact (Option.some.inj hs).symm

end Sign

theorem wall_ne_cursorGlyph (penDown : Bool) : wall ≠ cursorGlyph penDown := by
  intro h
  have h : Sign.wall.glyph = (Sign.cursor penDown).glyph := h
  cases Sign.glyph_injective h

end View

namespace Rgb

open View

def sign (v : Rgb) : Sign :=
  (Color.classify v).elim .unknown .color

theorem sign_eq_color_iff {v : Rgb} {k : Color} : v.sign = .color k ↔ v = k.rgb := by
  rw [← Color.classify_eq_some_iff, sign]
  cases Color.classify v <;> simp

theorem glyph_sign (v : Rgb) : v.sign.glyph = v.glyph := by
  unfold sign glyph
  cases Color.classify v <;> rfl

theorem sign_eq_unknown_iff {v : Rgb} : v.sign = .unknown ↔ ∀ k : Color, v ≠ k.rgb := by
  rw [← Color.classify_eq_none_iff, sign]
  cases Color.classify v <;> simp

theorem sign_ne_wall (v : Rgb) : v.sign ≠ .wall := by
  unfold sign
  cases Color.classify v <;> nofun

theorem sign_ne_cursor (v : Rgb) (penDown : Bool) : v.sign ≠ .cursor penDown := by
  unfold sign
  cases Color.classify v <;> nofun

theorem glyph_ne_wall (v : Rgb) : v.glyph ≠ View.wall :=
  v.glyph_sign ▸ Sign.glyph_injective.ne v.sign_ne_wall

theorem glyph_ne_cursorGlyph (v : Rgb) (penDown : Bool) : v.glyph ≠ cursorGlyph penDown :=
  v.glyph_sign ▸ Sign.glyph_injective.ne (v.sign_ne_cursor penDown)

theorem ofGlyph?_glyph (v : Rgb) : Sign.ofGlyph? v.glyph = some v.sign := by
  rw [← glyph_sign, Sign.ofGlyph?_glyph]

end Rgb

end Atelier
