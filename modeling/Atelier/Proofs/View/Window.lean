import Atelier.Proofs.Canvas.Recentring
import Atelier.Proofs.Decimal.Padded
import Atelier.Proofs.Footprint
import Atelier.Proofs.View.Glyphs
import Atelier.Proofs.View.Lines
import Atelier.Proofs.View.Words

/-!
What the window around the cursor shows. It is a square with the cursor in its middle, and walls where the canvas
ends. In the normal mode, the colours around the cursor can be read off it.
-/

namespace Atelier

namespace Decimal

theorem newline_not_mem_padded (width n : Nat) : '\n' ∉ padded width n := by
  intro h
  have hd := isDigit_of_mem_padded h
  contradiction

theorem newline_not_mem_pointed (places n : Nat) : '\n' ∉ pointed places n := by
  have hp := newline_not_mem_padded (places + 1) n
  unfold pointed
  simp only
  split
  case isTrue => exact hp
  case isFalse =>
    simp only [List.mem_append, List.mem_cons, not_or]
    exact ⟨fun h => hp (List.mem_of_mem_take h), by decide, fun h => hp (List.mem_of_mem_drop h)⟩

theorem newline_not_mem_fixed (places : Nat) (x : Float) : '\n' ∉ (fixed places x).toList := by
  have hs (negative : Bool) : '\n' ∉ Literal.sign negative := by cases negative <;> decide
  rw [fixed, String.toList_ofList]
  cases Reading.ofFloat x
  case undefined =>
    rw [fixedReading]
    decide
  case infinite negative =>
    rw [fixedReading, List.mem_append, not_or]
    exact ⟨hs negative, by decide⟩
  case finite negative m e =>
    rw [fixedReading, List.mem_append, not_or]
    exact ⟨hs negative, newline_not_mem_pointed _ _⟩

end Decimal

namespace View

variable {c : Canvas} {mode : ViewMode} {zoomedOut : Bool} {dx dy : Int}

/-! Lines of the window -/

theorem densityGlyph_ne_newline (v : Float) : densityGlyph v ≠ '\n' := by
  unfold densityGlyph
  repeat' split
  all_goals decide

theorem edgeGlyph_ne_newline (r : Raster) (x y : Int) : edgeGlyph r x y ≠ '\n' := by
  unfold edgeGlyph
  simp only
  repeat' split
  all_goals decide

theorem windowGlyph_ne_newline (c : Canvas) (mode : ViewMode) (dx dy : Int) : windowGlyph c mode dx dy ≠ '\n' := by
  unfold windowGlyph
  simp only
  split
  case h_1 => decide
  case h_2 v _ =>
    split
    case isTrue => exact cursorGlyph_ne_newline _
    case isFalse =>
      cases mode
      case normal => exact v.glyph_ne_newline
      case density => exact densityGlyph_ne_newline _
      case shape => exact edgeGlyph_ne_newline _ _ _

theorem newline_not_mem_windowHeading {heading : String} (h : heading ∈ windowHeading c mode zoomedOut) :
    '\n' ∉ heading.toList := by
  have hd (n : Nat) : '\n' ∉ Nat.toDigits 10 n := Decimal.not_mem_toDigits (by decide) n
  have hf := Decimal.newline_not_mem_fixed 1 c.scale
  unfold windowHeading at h
  simp only at h
  split at h
  case isFalse => contradiction
  case isTrue =>
    cases h
    cases zoomedOut <;> cases mode <;> simp [toString, hd, hf, ViewMode.title]

theorem span_windowHalf_ne_nil (n : Nat) : span (-(n : Int)) n ≠ [] :=
  List.ne_nil_of_mem (mem_span_iff.mpr ⟨Int.neg_natCast_le_natCast n n, Int.le_refl n⟩)

theorem body_window (c : Canvas) (mode : ViewMode) (zoomedOut : Bool) :
    let half : Int := windowHalf c zoomedOut
    (window c mode zoomedOut).body = (span (-half) half).map fun dy =>
      String.ofList ((span (-half) half).map fun dx => windowGlyph c mode dx dy) := by
  intro half
  have hr : ∀ row ∈ (window c mode zoomedOut).rows, '\n' ∉ row := by
    intro row hrow hn
    obtain ⟨dy, _, rfl⟩ := List.mem_map.mp hrow
    obtain ⟨dx, _, hg⟩ := List.mem_map.mp hn
    exact windowGlyph_ne_newline c mode dx dy hg
  have hn : (window c mode zoomedOut).rows ≠ [] := by
    simp only [window, ne_eq, List.map_eq_nil_iff]
    exact span_windowHalf_ne_nil _
  rw [body, lines_eq_append (fun _ => newline_not_mem_windowHeading) hr (.inr hn), List.drop_left, window,
    List.map_map]
  rfl

theorem length_body (c : Canvas) (mode : ViewMode) (zoomedOut : Bool) :
    (window c mode zoomedOut).body.length = 2 * windowHalf c zoomedOut + 1 := by
  rw [body_window, List.length_map, length_span]
  omega

theorem length_of_mem_body {row : String} (h : row ∈ (window c mode zoomedOut).body) :
    row.length = 2 * windowHalf c zoomedOut + 1 := by
  rw [body_window] at h
  obtain ⟨dy, _, rfl⟩ := List.mem_map.mp h
  rw [String.length_ofList, List.length_map, length_span]
  omega

theorem glyphAt?_body (mode : ViewMode) (hx : dx.natAbs ≤ windowHalf c zoomedOut)
    (hy : dy.natAbs ≤ windowHalf c zoomedOut) :
    glyphAt? (window c mode zoomedOut).body (dy + windowHalf c zoomedOut).toNat (dx + windowHalf c zoomedOut).toNat =
      some (windowGlyph c mode dx dy) := by
  have hs {d : Int} (h : d.natAbs ≤ windowHalf c zoomedOut) :
      (span (-(windowHalf c zoomedOut : Int)) (windowHalf c zoomedOut))[(d + windowHalf c zoomedOut).toNat]? = some d := by
    rw [← Int.sub_neg]
    exact getElem?_span (by omega) (by omega)
  rw [glyphAt?, body_window, List.getElem?_map, hs hy, Option.map_some, Option.bind_some, String.toList_ofList,
    List.getElem?_map, hs hx, Option.map_some]

/-! Glyphs of the window -/

theorem windowGlyph_of_outside (h : c.raster.get? (c.cursor.x + dx) (c.cursor.y + dy) = none) :
    windowGlyph c mode dx dy = wall := by
  unfold windowGlyph
  simp only [h]

theorem windowGlyph_center {v : Rgb} (h : c.raster.get? c.cursor.x c.cursor.y = some v) :
    windowGlyph c mode 0 0 = cursorGlyph c.cursor.penDown := by
  unfold windowGlyph
  simp only [Int.add_zero, h, and_self, if_true]

theorem windowGlyph_normal {v : Rgb} (h : c.raster.get? (c.cursor.x + dx) (c.cursor.y + dy) = some v)
    (hn : ¬(dx = 0 ∧ dy = 0)) : windowGlyph c .normal dx dy = v.glyph := by
  unfold windowGlyph
  simp only [h, hn, if_false]

theorem windowGlyph_normal_eq_wall_iff :
    windowGlyph c .normal dx dy = wall ↔ c.raster.get? (c.cursor.x + dx) (c.cursor.y + dy) = none := by
  refine ⟨fun hg => ?_, windowGlyph_of_outside⟩
  cases hv : c.raster.get? (c.cursor.x + dx) (c.cursor.y + dy)
  case none => rfl
  case some v =>
    by_cases hn : dx = 0 ∧ dy = 0
    case pos =>
      obtain ⟨rfl, rfl⟩ := hn
      rw [Int.add_zero, Int.add_zero] at hv
      rw [windowGlyph_center hv] at hg
      exact absurd hg.symm (wall_ne_cursorGlyph _)
    case neg =>
      rw [windowGlyph_normal hv hn] at hg
      exact absurd hg v.glyph_ne_wall

-- The window is a square around the cursor. Where it goes beyond the canvas it shows walls. The normal mode shows
-- walls nowhere else, and from each of its other glyphs the cell can be told, as no two signs look the same.
theorem window_shows_canvas (h : c.IsWhole) (mode : ViewMode) (zoomedOut : Bool) :
    let half := min (if zoomedOut then 75 else 50) (max 1 (min c.width c.height / 2)) / 2
    let body := (window c mode zoomedOut).body
    let shown (dx dy : Int) := glyphAt? body (dy + half).toNat (dx + half).toNat
    let On (x y : Int) := (0 ≤ x ∧ x < c.width) ∧ 0 ≤ y ∧ y < c.height
    (body.length = 2 * half + 1 ∧ ∀ row ∈ body, row.length = 2 * half + 1) ∧
      shown 0 0 = some (cursorGlyph c.cursor.penDown) ∧
      (∀ dx dy, dx.natAbs ≤ half → dy.natAbs ≤ half →
        (¬On (c.cursor.x + dx) (c.cursor.y + dy) → shown dx dy = some wall) ∧
        (mode = .normal →
          (shown dx dy = some wall ↔ ¬On (c.cursor.x + dx) (c.cursor.y + dy)) ∧
          (On (c.cursor.x + dx) (c.cursor.y + dy) → ¬(dx = 0 ∧ dy = 0) →
            ∃ v, c.raster.get? (c.cursor.x + dx) (c.cursor.y + dy) = some v ∧
              (∀ k : Color, (shown dx dy).bind Sign.ofGlyph? = some (.color k) ↔ v = k.rgb) ∧
              ((shown dx dy).bind Sign.ofGlyph? = some .unknown ↔ ∀ k : Color, v ≠ k.rgb)))) ∧
      Function.Injective Sign.glyph ∧ (c.raster.size.IsShort → Fits c) := by
  intro half body shown On
  have hs {dx dy : Int} (hx : dx.natAbs ≤ half) (hy : dy.natAbs ≤ half) :
      shown dx dy = some (windowGlyph c mode dx dy) := glyphAt?_body mode hx hy
  have hn (x y : Int) : c.raster.get? x y = none ↔ ¬On x y := h.get?_eq_none_iff x y
  refine ⟨⟨length_body c mode zoomedOut, fun _ => length_of_mem_body⟩, ?center, fun dx dy hx hy => ?glyphs,
    Sign.glyph_injective, fun hz => fits_of_isShort hz h.cursor⟩
  case center =>
    have hc : On c.cursor.x c.cursor.y := Canvas.isOn_iff.mp h.cursor
    obtain ⟨v, hv⟩ := h.exists_cell hc.left hc.right
    rw [hs (Nat.zero_le _) (Nat.zero_le _), windowGlyph_center hv]
  case glyphs =>
    refine ⟨fun ho => by rw [hs hx hy, windowGlyph_of_outside ((hn ..).mpr ho)], fun hm => ?_⟩
    subst hm
    refine ⟨by rw [hs hx hy, Option.some_inj, windowGlyph_normal_eq_wall_iff, hn], fun ho hd => ?_⟩
    obtain ⟨v, hv⟩ := h.exists_cell ho.left ho.right
    refine ⟨v, hv, fun k => ?_, ?_⟩
    all_goals rw [hs hx hy, windowGlyph_normal hv hd, Option.bind_some, v.ofGlyph?_glyph, Option.some_inj]
    case refine_1 => exact v.sign_eq_color_iff
    case refine_2 => exact v.sign_eq_unknown_iff

-- The cursor is in the upper left corner, a red cell is to the right of it, and a cell with a colour that the palette
-- does not have is below it.
def corner : Canvas where
  raster := ((Raster.filled 6 4 Rgb.black).set 1 0 Color.red.rgb).set 0 1 ⟨1, 2, 3⟩
  cursor := ⟨0, 0, true, .red, .brush⟩
  scale := 1.0
  screen := ⟨46, 44⟩
  colors := .empty Canvas.colorLimit
  spray := .scripted (fun _ _ => true) 0

theorem size_corner : corner.raster.size = ⟨6, 4⟩ := by
  decide

theorem isWhole_corner : corner.IsWhole where
  wellFormed := by
    unfold Raster.WellFormed
    decide
  isFeasible := by
    rw [size_corner]
    exact ⟨by decide, by decide, by decide⟩
  cursor := by
    rw [size_corner]
    exact ⟨by decide, by decide⟩

theorem window_shows_canvas_of_corner :
    corner.IsWhole ∧ (window corner .normal false).body.length = 3 ∧
      glyphAt? (window corner .normal false).body 1 1 = some '◉' ∧
      glyphAt? (window corner .normal false).body 0 1 = some wall ∧
      (glyphAt? (window corner .normal false).body 1 2).bind Sign.ofGlyph? = some (.color .red) ∧
      (glyphAt? (window corner .normal false).body 2 1).bind Sign.ofGlyph? = some .unknown := by
  obtain ⟨⟨hl, _⟩, hc, hg, _⟩ := window_shows_canvas isWhole_corner .normal false
  have habove := (hg 0 (-1) (by decide) (by decide)).left (by decide)
  obtain ⟨v, hv, hred, _⟩ := ((hg 1 0 (by decide) (by decide)).right rfl).right (by decide) (by decide)
  obtain ⟨w, hw, _, hunknown⟩ := ((hg 0 1 (by decide) (by decide)).right rfl).right (by decide) (by decide)
  have hv : v = Color.red.rgb := Option.some.inj (hv.symm.trans (by decide))
  have hw : w = ⟨1, 2, 3⟩ := Option.some.inj (hw.symm.trans (by decide))
  refine ⟨isWhole_corner, hl, hc, habove, (hred .red).mpr hv, hunknown.mpr fun k => ?_⟩
  subst hw
  cases k <;> decide

end View

end Atelier
