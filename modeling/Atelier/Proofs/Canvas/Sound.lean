import Atelier.Proofs.Raster.Migration
import Atelier.Proofs.Rounding.Quotient

/-!
Canvases that are in order: they have cells, one for each position, the cursor is on one of them, and
they are small enough for all positions around them to be counted in words of 32 bits.
-/

namespace Atelier

namespace Offset

-- No tool paints further away from the cursor.
def IsNear (o : Offset) : Prop :=
  (-20 ≤ o.dx ∧ o.dx ≤ 20) ∧ -20 ≤ o.dy ∧ o.dy ≤ 20

variable {o : Offset} {lo hi : Int}

theorem isNear_of_mem_grid (h : o ∈ grid lo hi) (hl : -20 ≤ lo) (hh : hi ≤ 20) : o.IsNear := by
  have ⟨_, _⟩ := mem_grid_iff.mp h
  unfold IsNear
  omega

theorem isNear_of_mem_flower (h : o ∈ flower) : o.IsNear := by
  simp only [flower, List.mem_flatMap, List.mem_filterMap] at h
  obtain ⟨dx, hx, dy, hy, h⟩ := h
  split at h
  case isTrue =>
    have hx := mem_span_iff.mp hx
    have hy := mem_span_iff.mp hy
    rw [← Option.some.inj h]
    unfold IsNear
    simp only
    omega
  case isFalse => contradiction

theorem isNear_of_mem_filter {p : Offset → Bool} (h : o ∈ (grid lo hi).filter p) (hl : -20 ≤ lo)
    (hh : hi ≤ 20) : o.IsNear :=
  isNear_of_mem_grid (List.mem_filter.mp h).left hl hh

theorem isNear_of_mem_footprint {t : Tool} {os : List Offset} (h : t.footprint = .fixed os) (ho : o ∈ os) :
    o.IsNear := by
  have hm {cells : List Offset} (h : Footprint.fixed cells = .fixed os) : o ∈ cells :=
    Footprint.fixed.inj h ▸ ho
  cases t
  case pen => exact isNear_of_mem_grid (hm h) (by decide) (by decide)
  case brush => exact isNear_of_mem_grid (hm h) (by decide) (by decide)
  case largeBrush => exact isNear_of_mem_grid (hm h) (by decide) (by decide)
  case largerBrush => exact isNear_of_mem_grid (hm h) (by decide) (by decide)
  case spray => contradiction
  case star => exact isNear_of_mem_filter (hm h) (by decide) (by decide)
  case cross => exact isNear_of_mem_filter (hm h) (by decide) (by decide)
  case circle => exact isNear_of_mem_filter (hm h) (by decide) (by decide)
  case diamond => exact isNear_of_mem_filter (hm h) (by decide) (by decide)
  case flower => exact isNear_of_mem_flower (hm h)

end Offset

-- Sides up to this length are short enough for everything.
def Size.IsShort (s : Size) : Prop :=
  s.width ≤ 2 ^ 30 ∧ s.height ≤ 2 ^ 30

instance (s : Size) : Decidable s.IsShort :=
  inferInstanceAs (Decidable (_ ∧ _))

-- Sides of screens are words.
def Size.IsWord (s : Size) : Prop :=
  s.width < 2 ^ 32 ∧ s.height < 2 ^ 32

instance (s : Size) : Decidable s.IsWord :=
  inferInstanceAs (Decidable (_ ∧ _))

theorem Size.IsShort.isWord {s : Size} (h : s.IsShort) : s.IsWord :=
  ⟨Nat.lt_of_le_of_lt h.left (by decide), Nat.lt_of_le_of_lt h.right (by decide)⟩

-- Sides are never less than one.
theorem Size.IsShort.max_one {s : Size} (h : s.IsShort) : IsShort ⟨max s.width 1, max s.height 1⟩ :=
  ⟨Nat.max_le.mpr ⟨h.left, by decide⟩, Nat.max_le.mpr ⟨h.right, by decide⟩⟩

theorem Size.IsShort.isFeasible {s : Size} (h : s.IsShort) : s.IsFeasible where
  width_lt := Nat.lt_of_le_of_lt h.left (by decide)
  height_lt := Nat.lt_of_le_of_lt h.right (by decide)
  bytes_lt := by
    have hb := Nat.mul_le_mul h.left h.right
    omega

namespace Raster

variable {r : Raster} {width height : Nat}

theorem migrate_eq (hr : r.size.IsShort) (hs : Size.IsShort ⟨width, height⟩) :
    r.migrate width height = .ok (r.centredIn width height, r.offsetTo width height) :=
  migrate_of_feasible hr.isFeasible hs.isFeasible

theorem offsetTo_bounds (hr : r.size.IsShort) (hs : Size.IsShort ⟨width, height⟩) :
    (-2 ^ 29 ≤ (r.offsetTo width height).dx ∧ (r.offsetTo width height).dx ≤ 2 ^ 29) ∧
    (-2 ^ 29 ≤ (r.offsetTo width height).dy ∧ (r.offsetTo width height).dy ≤ 2 ^ 29) := by
  rw [offsetTo_eq hr.isFeasible hs.isFeasible]
  obtain ⟨hrw, hrh⟩ : r.width ≤ 2 ^ 30 ∧ r.height ≤ 2 ^ 30 := hr
  obtain ⟨hw, hh⟩ : width ≤ 2 ^ 30 ∧ height ≤ 2 ^ 30 := hs
  have ⟨hwg, hws⟩ := half_bounds ((width : Int) - r.width)
  have ⟨hhg, hhs⟩ := half_bounds ((height : Int) - r.height)
  simp only
  omega

-- Pictures with cells, one for each position.
structure Sound (r : Raster) : Prop where
  width_pos : 0 < r.width
  height_pos : 0 < r.height
  isShort : r.size.IsShort
  wellFormed : r.WellFormed

theorem sound_filled {c : Rgb} (hw : 0 < width) (hh : 0 < height) (hs : Size.IsShort ⟨width, height⟩) :
    (filled width height c).Sound :=
  ⟨hw, hh, hs, wellFormed_filled width height c⟩

theorem sound_centredIn (r : Raster) (hw : 0 < width) (hh : 0 < height)
    (hs : Size.IsShort ⟨width, height⟩) : (r.centredIn width height).Sound where
  width_pos := hw
  height_pos := hh
  isShort := by rwa [size_centredIn]
  wellFormed := r.wellFormed_centredIn width height

theorem size_paint (r : Raster) (x y : Int) (c : Rgb) (os : List Offset) :
    (r.paint x y c os).size = r.size := by
  unfold paint
  induction os generalizing r
  case nil => rfl
  case cons o os ih => rw [List.foldl_cons, ih, size, width_set, height_set, size]

theorem Sound.paint (h : r.Sound) (x y : Int) (c : Rgb) (os : List Offset) : (r.paint x y c os).Sound := by
  have hs := r.size_paint x y c os
  have hw : (r.paint x y c os).width = r.width := congrArg Size.width hs
  have hh : (r.paint x y c os).height = r.height := congrArg Size.height hs
  exact ⟨hw ▸ h.width_pos, hh ▸ h.height_pos, hs ▸ h.isShort, wellFormed_paint h.wellFormed x y c os⟩

end Raster

def Cursor.IsOn (k : Cursor) (s : Size) : Prop :=
  (0 ≤ k.x ∧ k.x < s.width) ∧ 0 ≤ k.y ∧ k.y < s.height

-- Cursors that need not be on a canvas, but are not far from one.
def Cursor.IsClose (k : Cursor) : Prop :=
  k.x.natAbs ≤ 2 ^ 30 ∧ k.y.natAbs ≤ 2 ^ 30

instance (k : Cursor) : Decidable k.IsClose :=
  inferInstanceAs (Decidable (_ ∧ _))

namespace Canvas

variable {c c' : Canvas} {o : Offset}

structure Sound (c : Canvas) : Prop where
  raster : c.raster.Sound
  cursor : c.cursor.IsOn c.raster.size
  screen : c.screen.IsWord
  colors_limit : c.colors.limit = colorLimit
  colors_le : c.colors.length ≤ colorLimit

theorem Sound.index_lt (h : c.Sound) {x y : Int} {i : Nat} (hi : c.raster.index? x y = some i) :
    i < c.raster.cells.size :=
  h.raster.wellFormed ▸ Raster.index?_lt hi

/-! Sides -/

theorem side_eq_ok {n : Nat} (h : n < 2 ^ 32) (scale : Float) :
    ∃ k, side n (clampScale scale) = .ok k ∧ 0 < k ∧ k ≤ max n 1 := by
  have ⟨hl, hu⟩ := truncate64_div_clampScale (Nat.lt_trans h (by decide)) scale
  unfold side
  generalize truncate64 (Float.ofNat n / clampScale scale) = i at hl hu
  have hf : Checked.Fits64 (i - margin) := by
    unfold Checked.Fits64 margin
    omega
  have hm : margin = 40 := rfl
  rw [Checked.int64, if_pos hf, Checked.ok_bind]
  refine ⟨_, rfl, ?_⟩
  omega

theorem dims_eq_ok {screen : Size} (h : screen.IsWord) (scale : Float) :
    ∃ size, dims screen (clampScale scale) = .ok size ∧
      (0 < size.width ∧ size.width ≤ max screen.width 1) ∧
      0 < size.height ∧ size.height ≤ max screen.height 1 := by
  have ⟨w, hw, hw'⟩ := side_eq_ok h.left scale
  have ⟨k, hk, hk'⟩ := side_eq_ok h.right scale
  refine ⟨⟨w, k⟩, ?_, hw', hk'⟩
  rw [dims, hw, hk]
  rfl

theorem clampScale_clampScale (scale : Float) : clampScale (clampScale scale) = clampScale scale := by
  have hmin : clampScale minScale = minScale := by decide
  have hmax : clampScale maxScale = maxScale := by decide
  by_cases hl : scale < minScale
  case pos =>
    have hc : clampScale scale = minScale := if_pos hl
    rw [hc, hmin]
  case neg =>
    by_cases hu : scale > maxScale
    case pos =>
      have hc : clampScale scale = maxScale := (if_neg hl).trans (if_pos hu)
      rw [hc, hmax]
    case neg =>
      have hc : clampScale scale = scale := (if_neg hl).trans (if_neg hu)
      rw [hc, hc]

theorem clampScale_nextScale (c : Canvas) (z : Zoom) : clampScale (c.nextScale z) = c.nextScale z := by
  cases z <;> exact clampScale_clampScale _

/-! Drawing -/

-- By the sides of the canvas, which are those of its raster.
theorem isOn_iff : c.cursor.IsOn c.raster.size ↔
    (0 ≤ c.cursor.x ∧ c.cursor.x < c.width) ∧ 0 ≤ c.cursor.y ∧ c.cursor.y < c.height :=
  Iff.rfl

theorem isOn_nearest {k : Cursor} {width height : Nat} (hw : 0 < width) (hh : 0 < height) (x y : Int) :
    Cursor.IsOn { k with x := nearest width x, y := nearest height y } ⟨width, height⟩ :=
  ⟨nearest_mem hw x, nearest_mem hh y⟩

theorem isNear_of_mem_footprint (ho : o ∈ c.footprint.1) : o.IsNear := by
  unfold footprint at ho
  split at ho
  case h_1 h => exact Offset.isNear_of_mem_footprint h ho
  case h_2 =>
    exact Offset.isNear_of_mem_filter ((Spray.cells_sublist _).subset ho) (by decide) (by decide)

-- A stroke is not stopped if all positions around the cursor are words.
theorem stroke_of_fits (h : ∀ o : Offset, o.IsNear →
      Checked.Fits32 (c.cursor.x + o.dx) ∧ Checked.Fits32 (c.cursor.y + o.dy)) :
    c.stroke = .ok ({ c with
      raster := c.raster.paint c.cursor.x c.cursor.y c.cursor.color.rgb c.footprint.1
      spray := c.footprint.2 },
      c.footprint.1.countP fun o => c.raster.Inside (c.cursor.x + o.dx) (c.cursor.y + o.dy)) := by
  have hp : c.footprint.1.forM (fun o => do
      discard <| Checked.int32 (c.cursor.x + o.dx)
      discard <| Checked.int32 (c.cursor.y + o.dy)) = .ok () := by
    apply Checked.forM_eq_ok
    intro o ho
    have ⟨hx, hy⟩ := h o (isNear_of_mem_footprint ho)
    rw [Checked.int32_of_fits hx, Checked.int32_of_fits hy]
    rfl
  unfold stroke
  simp only [hp]
  rfl

theorem stroke_eq (h : c.cursor.IsOn c.raster.size) (hs : c.raster.size.IsShort) :
    ∃ n, c.stroke = .ok ({ c with
      raster := c.raster.paint c.cursor.x c.cursor.y c.cursor.color.rgb c.footprint.1
      spray := c.footprint.2 }, n) := by
  refine ⟨_, stroke_of_fits fun o ho => ?_⟩
  obtain ⟨hw, hh⟩ := hs
  obtain ⟨hx, hy⟩ := h
  obtain ⟨hdx, hdy⟩ := ho
  unfold Checked.Fits32
  omega

theorem Sound.stroke (h : c.Sound) : ∃ c' n, c.stroke = .ok (c', n) ∧ c'.Sound := by
  have ⟨n, hs⟩ := stroke_eq h.cursor h.raster.isShort
  have hk := h.cursor
  rw [← c.raster.size_paint c.cursor.x c.cursor.y c.cursor.color.rgb c.footprint.1] at hk
  exact ⟨_, n, hs, { h with raster := h.raster.paint .., cursor := hk }⟩

theorem Sound.with_cursor (h : c.Sound) {k : Cursor} (hk : k.IsOn c.raster.size) :
    Sound { c with cursor := k } :=
  { h with cursor := hk }

theorem Sound.nearest (h : c.Sound) (x y : Int) :
    Sound { c with cursor := { c.cursor with x := nearest c.width x, y := nearest c.height y } } :=
  h.with_cursor (isOn_nearest h.raster.width_pos h.raster.height_pos x y)

-- The cursor after a move.
def landing (c : Canvas) (d : Direction) : Cursor :=
  { c.cursor with
    x := nearest c.width (c.cursor.x + d.dx * stride)
    y := nearest c.height (c.cursor.y + d.dy * stride) }

theorem landing_eq_iff {d : Direction} : c.landing d = c.cursor ↔
    nearest c.width (c.cursor.x + d.dx * stride) = c.cursor.x ∧
      nearest c.height (c.cursor.y + d.dy * stride) = c.cursor.y :=
  ⟨fun h => ⟨congrArg Cursor.x h, congrArg Cursor.y h⟩, fun ⟨hx, hy⟩ => by rw [landing, hx, hy]⟩

theorem move_of_fits {d : Direction} (hx : Checked.Fits32 (c.cursor.x + d.dx * stride))
    (hy : Checked.Fits32 (c.cursor.y + d.dy * stride)) :
    c.move d =
      if c.landing d = c.cursor then
        .ok (c, ⟨false, 0⟩)
      else if c.cursor.penDown then do
        let (c, n) ← { c with cursor := c.landing d }.stroke
        return (c, ⟨true, n⟩)
      else
        .ok ({ c with cursor := c.landing d }, ⟨true, 0⟩) := by
  have hm : (nearest c.width (c.cursor.x + d.dx * stride) != c.cursor.x ||
      nearest c.height (c.cursor.y + d.dy * stride) != c.cursor.y) = !decide (c.landing d = c.cursor) := by
    simp only [landing_eq_iff, Bool.decide_and, Bool.not_and, bne, beq_eq_decide]
  simp only [Canvas.move, Checked.int32_of_fits hx, Checked.int32_of_fits hy, Checked.ok_bind, hm]
  by_cases hl : c.landing d = c.cursor
  case pos =>
    obtain ⟨hx, hy⟩ := landing_eq_iff.mp hl
    simp only [hl, hx, hy, decide_true, Bool.not_true, Bool.false_and, Bool.false_eq_true, if_true, if_false]
    rfl
  case neg =>
    simp only [hl, decide_false, Bool.not_false, Bool.true_and, if_false]
    rfl

-- What a move can do.
inductive Lands (c : Canvas) (d : Direction) : Canvas → MoveOutcome → Prop
  | stays : c.landing d = c.cursor → Lands c d c ⟨false, 0⟩
  | glides : c.landing d ≠ c.cursor → c.cursor.penDown = false →
    Lands c d { c with cursor := c.landing d } ⟨true, 0⟩
  | paints {c' n} : c.landing d ≠ c.cursor → c.cursor.penDown = true →
    { c with cursor := c.landing d }.stroke = .ok (c', n) → Lands c d c' ⟨true, n⟩

theorem lands_of_move {d : Direction} {o : MoveOutcome} (h : c.move d = .ok (c', o)) : c.Lands d c' o := by
  obtain ⟨_, hx, h'⟩ := Checked.bind_eq_ok_iff.mp h
  obtain ⟨_, hy, _⟩ := Checked.bind_eq_ok_iff.mp h'
  rw [move_of_fits (Checked.int32_eq_ok_iff.mp hx).left (Checked.int32_eq_ok_iff.mp hy).left] at h
  split at h
  case isTrue hl =>
    cases h
    exact .stays hl
  case isFalse hl =>
    split at h
    case isTrue hp =>
      obtain ⟨⟨c₁, n⟩, hs, h⟩ := Checked.bind_eq_ok_iff.mp h
      cases h
      exact .paints hl hp hs
    case isFalse hp =>
      cases h
      exact .glides hl (Bool.eq_false_iff.mpr hp)

theorem fits_landing (h : c.cursor.IsOn c.raster.size) (hw : c.width + 20 ≤ 2 ^ 31) (hh : c.height + 20 ≤ 2 ^ 31)
    (d : Direction) :
    Checked.Fits32 (c.cursor.x + d.dx * stride) ∧ Checked.Fits32 (c.cursor.y + d.dy * stride) := by
  obtain ⟨⟨hx, hxw⟩, hy, hyh⟩ := isOn_iff.mp h
  unfold Checked.Fits32 stride
  cases d
  all_goals
    simp only [Direction.dx, Direction.dy]
    omega

theorem Sound.move (h : c.Sound) (d : Direction) : ∃ c' m, c.move d = .ok (c', m) ∧ c'.Sound := by
  obtain ⟨hw, hh⟩ : c.width ≤ 2 ^ 30 ∧ c.height ≤ 2 ^ 30 := h.raster.isShort
  have ⟨hfx, hfy⟩ := fits_landing h.cursor (by omega) (by omega) d
  have hn : Sound { c with cursor := c.landing d } := h.nearest _ _
  rw [move_of_fits hfx hfy]
  split
  case isTrue => exact ⟨c, _, rfl, h⟩
  case isFalse =>
    split
    case isTrue =>
      have ⟨c', n, hs, hc⟩ := hn.stroke
      exact ⟨c', _, by rw [hs]; rfl, hc⟩
    case isFalse => exact ⟨_, _, rfl, hn⟩

theorem Sound.setPen (h : c.Sound) (down : Bool) : (c.setPen down).Sound :=
  h.with_cursor h.cursor

theorem Sound.setTool (h : c.Sound) (t : Tool) : (c.setTool t).Sound :=
  h.with_cursor h.cursor

theorem Sound.setColor (h : c.Sound) (k : Color) : (c.setColor k).Sound := by
  unfold Canvas.setColor
  split
  case isTrue => exact h
  case isFalse =>
    exact {
      raster := h.raster
      cursor := h.cursor
      screen := h.screen
      colors_limit := h.colors_limit
      colors_le := h.colors_limit ▸ c.colors.length_push_le k
    }

theorem Sound.center (h : c.Sound) : c.center.Sound := by
  have ⟨hw, hh, _, _⟩ := h.raster
  refine h.with_cursor ⟨⟨?_, ?_⟩, ?_, ?_⟩
  all_goals
    simp only [Raster.size, width, height]
    omega

theorem Sound.fill_raster (h : c.Sound) (k : Rgb) : Sound { c with raster := c.raster.fill k } :=
  { h with
    raster := Raster.sound_filled h.raster.width_pos h.raster.height_pos h.raster.isShort
    cursor := h.cursor }

theorem Sound.clear (h : c.Sound) : c.clear.Sound :=
  h.fill_raster _

theorem Sound.fill (h : c.Sound) : c.fill.Sound :=
  h.fill_raster _

/-! Changes of size -/

theorem shiftCursor_eq {k : Cursor} {width height : Nat} (hx : Checked.Fits32 (k.x + o.dx))
    (hy : Checked.Fits32 (k.y + o.dy)) :
    shiftCursor k o width height =
      .ok { k with x := Canvas.nearest width (k.x + o.dx), y := Canvas.nearest height (k.y + o.dy) } := by
  simp only [shiftCursor, Checked.int32_of_fits hx, Checked.int32_of_fits hy, Checked.ok_bind]
  rfl

theorem exists_shiftCursor {r : Raster} {k : Cursor} {width height : Nat} (hr : r.size.IsShort)
    (hs : Size.IsShort ⟨width, height⟩) (hk : k.IsClose) (hw : 0 < width) (hh : 0 < height) :
    ∃ k', shiftCursor k (r.offsetTo width height) width height = .ok k' ∧ k'.IsOn ⟨width, height⟩ := by
  obtain ⟨hx, hy⟩ := hk
  obtain ⟨hdx, hdy⟩ := Raster.offsetTo_bounds hr hs
  refine ⟨_, shiftCursor_eq ?_ ?_, isOn_nearest hw hh _ _⟩
  all_goals
    unfold Checked.Fits32
    omega

theorem Sound.cursor_isClose (h : c.Sound) : c.cursor.IsClose := by
  obtain ⟨hw, hh⟩ := h.raster.isShort
  obtain ⟨hx, hy⟩ := h.cursor
  unfold Cursor.IsClose
  omega

theorem Sound.resize (h : c.Sound) {size : Size} (hs : size.IsShort) :
    ∃ c', c.resize size = .ok c' ∧ c'.Sound := by
  have hs := hs.max_one
  have hw : 0 < max size.width 1 := Nat.le_max_right _ _
  have hh : 0 < max size.height 1 := Nat.le_max_right _ _
  have ⟨k, hk, hon⟩ := exists_shiftCursor h.raster.isShort hs h.cursor_isClose hw hh
  unfold Canvas.resize
  simp only []
  split
  case isTrue => exact ⟨c, rfl, h⟩
  case isFalse =>
    simp only [Raster.migrate_eq h.raster.isShort hs, Checked.ok_bind, hk]
    exact ⟨_, rfl, { h with raster := c.raster.sound_centredIn hw hh hs, cursor := hon }⟩

theorem Sound.with_scale (h : c.Sound) (scale : Float) : Sound { c with scale := scale } :=
  { h with raster := h.raster }

theorem Sound.zoom (h : c.Sound) {z : Zoom}
    (hs : ¬c.IsAtEnd z → ∀ size, dims c.screen (c.nextScale z) = .ok size → size.IsShort) :
    ∃ c' b, c.zoom z = .ok (c', b) ∧ c'.Sound := by
  rw [zoom_eq]
  split
  case isTrue => exact ⟨c, false, rfl, h⟩
  case isFalse he =>
    have ⟨size, hd, _⟩ := dims_eq_ok h.screen (c.nextScale z)
    rw [clampScale_nextScale] at hd
    have ⟨c', hr, hc⟩ := (h.with_scale (c.nextScale z)).resize (hs he size hd)
    refine ⟨c', true, ?_, hc⟩
    rw [hd, Checked.ok_bind, hr]
    rfl

theorem Sound.rescale (h : c.Sound) {screen : Size} {scale : Float} (hw : screen.IsWord)
    (hs : ∀ size, dims screen (clampScale scale) = .ok size → size.IsShort) :
    ∃ c', c.rescale screen scale = .ok c' ∧ c'.Sound := by
  have ⟨size, hd, _⟩ := dims_eq_ok hw scale
  have hc : Sound { c with screen := screen, scale := clampScale scale } := { h with screen := hw }
  have ⟨c', hr, hc'⟩ := hc.resize (hs size hd)
  refine ⟨c', ?_, hc'⟩
  rw [Canvas.rescale]
  simp only [hd, Checked.ok_bind]
  exact hr

theorem Sound.restore (h : c.Sound) {stored : Option Raster} {k : Cursor} (hk : k.IsClose)
    (hs : ∀ r, stored = some r → r.size.IsShort) (colors : List Color) :
    ∃ c', c.restore stored k colors = .ok c' ∧ c'.Sound := by
  have hl : (lastOf colorLimit colors).length ≤ colorLimit := by
    rw [length_lastOf]
    exact Nat.min_le_left _ _
  cases stored
  case none =>
    refine ⟨_, rfl, ?_⟩
    exact {
      raster := h.raster
      cursor := isOn_nearest h.raster.width_pos h.raster.height_pos _ _
      screen := h.screen
      colors_limit := rfl
      colors_le := hl
    }
  case some r =>
    have ⟨hw, hh, hc, _⟩ := h.raster
    have ⟨k', hk', hon⟩ := exists_shiftCursor (hs r rfl) hc hk hw hh
    simp only [Canvas.restore, width, height, Raster.migrate_eq (hs r rfl) hc, Checked.ok_bind, hk']
    refine ⟨_, rfl, ?_⟩
    exact {
      raster := r.sound_centredIn hw hh hc
      cursor := hon
      screen := h.screen
      colors_limit := rfl
      colors_le := hl
    }

/-! New canvases -/

theorem exists_ofSize {size : Size} (hs : size.IsShort) (spray : Spray) :
    ∃ c, ofSize size spray = .ok c ∧ c.Sound := by
  have hs' := hs.max_one
  have hw : 0 < max size.width 1 := Nat.le_max_right _ _
  have hh : 0 < max size.height 1 := Nat.le_max_right _ _
  obtain ⟨hsw, hsh⟩ := hs
  have hm : margin = 40 := rfl
  have hnw : size.width + margin < 4294967296 := by omega
  have hnh : size.height + margin < 4294967296 := by omega
  simp only [ofSize, Raster.filledChecked, Raster.countBytes_of_lt hs'.isFeasible.bytes_lt, Checked.ok_bind,
    Checked.nat32, hnw, hnh, if_true]
  refine ⟨_, rfl, ?_⟩
  exact {
    raster := Raster.sound_filled hw hh hs'
    cursor := by
      simp only [Cursor.IsOn, Raster.size, Raster.filled]
      omega
    screen := ⟨hnw, hnh⟩
    colors_limit := rfl
    colors_le := Nat.zero_le _
  }

theorem exists_ofScreen {screen : Size} {scale : Float} (hw : screen.IsWord)
    (hs : ∀ size, dims screen (clampScale scale) = .ok size → size.IsShort) (spray : Spray) :
    ∃ c, ofScreen screen scale spray = .ok c ∧ c.Sound := by
  have ⟨size, hd, _⟩ := dims_eq_ok hw scale
  have ⟨c, ho, hc⟩ := exists_ofSize (hs size hd) spray
  simp only [ofScreen, hd, ho, Checked.ok_bind]
  exact ⟨_, rfl, { hc with screen := hw }⟩

-- New canvases have the cursor in the middle.
structure IsNew (c : Canvas) : Prop where
  cursor : c.cursor = ⟨(c.width / 2 : Nat), (c.height / 2 : Nat), true, .white, .brush⟩
  colors : c.colors = .empty colorLimit
  width_pos : 0 < c.width
  height_pos : 0 < c.height

theorem isNew_ofSize {size : Size} {spray : Spray} (h : ofSize size spray = .ok c) : c.IsNew := by
  simp only [ofSize, Raster.filledChecked, Checked.bind_eq_ok_iff, Checked.pure_eq_ok_iff] at h
  obtain ⟨_, ⟨_, _, rfl⟩, _, _, _, _, rfl⟩ := h
  have hm (n : Nat) : max n 1 / 2 = n / 2 := by omega
  refine ⟨?_, rfl, Nat.le_max_right .., Nat.le_max_right ..⟩
  simp only [width, height, Raster.filled, hm]

theorem isNew_ofScreen {screen : Size} {scale : Float} {spray : Spray} (h : ofScreen screen scale spray = .ok c) :
    c.IsNew := by
  obtain ⟨_, _, h⟩ := Checked.bind_eq_ok_iff.mp h
  obtain ⟨c₀, hs, h⟩ := Checked.bind_eq_ok_iff.mp h
  cases h
  have hn := isNew_ofSize hs
  exact ⟨hn.cursor, hn.colors, hn.width_pos, hn.height_pos⟩

end Canvas

end Atelier
