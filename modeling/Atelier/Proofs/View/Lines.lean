import Atelier.View

/-!
Views as lines of text. No glyph breaks a line, so the lines of a view are its heading and its rows.
-/

namespace Atelier

theorem Color.glyph_ne_newline (k : Color) : k.glyph ≠ '\n' := by
  cases k <;> decide

theorem Rgb.glyph_ne_newline (v : Rgb) : v.glyph ≠ '\n' := by
  unfold glyph
  cases Color.classify v
  case none => decide
  case some k => exact k.glyph_ne_newline

namespace View

def lines (v : View) : List String :=
  (v.text.split '\n').toList.map (·.copy)

-- The lines under the heading.
def grid (v : View) : List String :=
  v.lines.tail

-- The lines under the heading, if there is one.
def body (v : View) : List String :=
  v.lines.drop v.heading.toList.length

-- The glyph in a row and a column of some lines.
def glyphAt? (rows : List String) (i j : Nat) : Option Char :=
  rows[i]?.bind (·.toList[j]?)

theorem lines_eq_append {v : View} (hh : ∀ heading ∈ v.heading, '\n' ∉ heading.toList)
    (hr : ∀ row ∈ v.rows, '\n' ∉ row) (hn : v.heading ≠ none ∨ v.rows ≠ []) :
    v.lines = v.heading.toList ++ v.rows.map String.ofList := by
  have hl : ∀ s ∈ v.heading.toList ++ v.rows.map String.ofList, '\n' ∉ s.toList := by
    intro s hs
    rw [List.mem_append, Option.mem_toList] at hs
    cases hs
    case inl hs => exact hh s hs
    case inr hs =>
      obtain ⟨row, hrow, rfl⟩ := List.mem_map.mp hs
      rw [String.toList_ofList]
      exact hr row hrow
  have hl := String.toList_split_intercalate hl
  have hn : v.heading.toList ++ v.rows.map String.ofList ≠ [] := by
    cases hv : v.heading <;> simp_all
  rwa [if_neg hn] at hl

theorem lines_eq {v : View} {heading : String} (he : v.heading = some heading) (hh : '\n' ∉ heading.toList)
    (hr : ∀ row ∈ v.rows, '\n' ∉ row) : v.lines = heading :: v.rows.map String.ofList := by
  have hl := lines_eq_append (by simpa [he] using hh) hr (.inl (he ▸ Option.some_ne_none heading))
  rwa [he] at hl

theorem cursorGlyph_ne_newline (penDown : Bool) : cursorGlyph penDown ≠ '\n' := by
  cases penDown <;> decide

end View

end Atelier
