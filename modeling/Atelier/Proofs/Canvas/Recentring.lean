import Atelier.Proofs.Canvas.Sound
import Atelier.Proofs.History

/-!
Canvases that change their size, or take over a stored picture of another size. The cursor moves along with the
picture: it stays on its cell as long as the cell is there, and next to where the cell would be otherwise. Going
to another size and back again leaves everything as it was but the cells that were cut off.
-/

namespace Atelier

theorem Size.IsFeasible.max_one {s : Size} (h : s.IsFeasible) :
    IsFeasible ⟨max s.width 1, max s.height 1⟩ where
  width_lt := Nat.max_lt.mpr ⟨h.width_lt, by decide⟩
  height_lt := Nat.max_lt.mpr ⟨h.height_lt, by decide⟩
  bytes_lt := by
    obtain ⟨hw, hh, hb⟩ := h
    simp only
    cases Nat.eq_zero_or_pos s.width
    case inl hz =>
      rw [hz, Nat.max_eq_right (Nat.zero_le 1)]
      omega
    case inr hp =>
      rw [Nat.max_eq_left hp]
      cases Nat.eq_zero_or_pos s.height
      case inl hz =>
        rw [hz, Nat.max_eq_right (Nat.zero_le 1)]
        omega
      case inr hp => rwa [Nat.max_eq_left hp]

namespace Cursor

-- The cursor goes along with its cell. Where the cell is cut off, it stays as near as it can, in each direction.
structure Follows (k : Cursor) (r : Raster) (o : Offset) (k' : Cursor) (r' : Raster) : Prop where
  isOn : k'.IsOn r'.size
  same : r'.Inside (k.x + o.dx) (k.y + o.dy) →
    (k'.x = k.x + o.dx ∧ k'.y = k.y + o.dy) ∧ r'.get? k'.x k'.y = r.get? k.x k.y
  nearest_x : ∀ x : Int, 0 ≤ x → x < r'.width → (k'.x - (k.x + o.dx)).natAbs ≤ (x - (k.x + o.dx)).natAbs
  nearest_y : ∀ y : Int, 0 ≤ y → y < r'.height → (k'.y - (k.y + o.dy)).natAbs ≤ (y - (k.y + o.dy)).natAbs
  pen : k' = { k with x := k'.x, y := k'.y }

end Cursor

namespace Canvas

variable {c c' : Canvas} {size : Size} {k : Cursor} {r : Raster}

-- Canvases of any size, with a cell for each position and the cursor on one of them.
structure IsWhole (c : Canvas) : Prop where
  wellFormed : c.raster.WellFormed
  isFeasible : c.raster.size.IsFeasible
  cursor : c.cursor.IsOn c.raster.size

theorem Sound.isWhole (h : c.Sound) : c.IsWhole :=
  ⟨h.raster.wellFormed, h.raster.isShort.isFeasible, h.cursor⟩

theorem IsWhole.width_pos (h : c.IsWhole) : 0 < c.raster.size.width := by
  obtain ⟨⟨hx, hxw⟩, _⟩ := h.cursor
  omega

theorem IsWhole.height_pos (h : c.IsWhole) : 0 < c.raster.size.height := by
  obtain ⟨_, hy, hyh⟩ := h.cursor
  omega

theorem IsWhole.get?_eq_none_iff (h : c.IsWhole) (x y : Int) :
    c.raster.get? x y = none ↔ ¬((0 ≤ x ∧ x < c.width) ∧ 0 ≤ y ∧ y < c.height) := by
  rw [← Option.not_isSome_iff_eq_none, Raster.isSome_get?_iff h.wellFormed, Raster.inside_iff h.isFeasible, width,
    height]

theorem IsWhole.exists_cell (h : c.IsWhole) {x y : Int} (hx : 0 ≤ x ∧ x < c.width) (hy : 0 ≤ y ∧ y < c.height) :
    ∃ v, c.raster.get? x y = some v := by
  rw [← Option.ne_none_iff_exists', ne_eq, h.get?_eq_none_iff]
  exact not_not_intro ⟨hx, hy⟩

theorem natAbs_nearest_le {side : Nat} {i j : Int} (h₁ : 0 ≤ j) (h₂ : j < side) :
    (nearest side i - i).natAbs ≤ (j - i).natAbs := by
  unfold nearest
  omega

-- The cursor that has moved by an offset, on a canvas of some size.
def shifted (k : Cursor) (o : Offset) (s : Size) : Cursor :=
  { k with x := nearest s.width (k.x + o.dx), y := nearest s.height (k.y + o.dy) }

theorem shifted_of_mem {o : Offset} (hx : 0 ≤ k.x + o.dx ∧ k.x + o.dx < size.width)
    (hy : 0 ≤ k.y + o.dy ∧ k.y + o.dy < size.height) :
    shifted k o size = { k with x := k.x + o.dx, y := k.y + o.dy } := by
  rw [shifted, nearest_of_mem hx.left hx.right, nearest_of_mem hy.left hy.right]

theorem shifted_zero (h : k.IsOn size) : shifted k ⟨0, 0⟩ size = k := by
  obtain ⟨⟨hx, hxw⟩, hy, hyh⟩ := h
  simp only [shifted, Int.add_zero, nearest_of_mem hx hxw, nearest_of_mem hy hyh]

theorem fits_of_isOn (hr : r.size.IsFeasible) (hs : size.IsFeasible) (hk : k.IsOn r.size) :
    Checked.Fits32 (k.x + (r.offsetTo size.width size.height).dx) ∧
      Checked.Fits32 (k.y + (r.offsetTo size.width size.height).dy) := by
  obtain ⟨⟨hx, hxw⟩, hy, hyh⟩ := hk
  rw [Raster.offsetTo_eq hr hs]
  exact ⟨fits_shifted hr.width_lt hs.width_lt hx hxw, fits_shifted hr.height_lt hs.height_lt hy hyh⟩

theorem shiftCursor_of_isOn (hr : r.size.IsFeasible) (hs : size.IsFeasible) (hk : k.IsOn r.size) :
    shiftCursor k (r.offsetTo size.width size.height) size.width size.height =
      .ok (shifted k (r.offsetTo size.width size.height) size) :=
  have ⟨hx, hy⟩ := fits_of_isOn hr hs hk
  shiftCursor_eq hx hy

theorem follows_shifted (hr : r.WellFormed) (hf : r.size.IsFeasible) (hs : size.IsFeasible)
    (hw : 0 < size.width) (hh : 0 < size.height) (hk : k.IsOn r.size) :
    k.Follows r (r.offsetTo size.width size.height) (shifted k (r.offsetTo size.width size.height) size)
      (r.centredIn size.width size.height) where
  isOn := isOn_nearest hw hh _ _
  same hi := by
    have hc : (r.centredIn size.width size.height).size.IsFeasible := by rwa [Raster.size_centredIn]
    have ⟨v, hv⟩ := Option.isSome_iff_exists.mp ((Raster.isSome_get?_iff hr).mpr ((Raster.inside_iff hf).mpr hk))
    have ⟨hx, hy⟩ := (Raster.inside_iff hc).mp hi
    rw [shifted_of_mem hx hy, hv]
    exact ⟨⟨rfl, rfl⟩, (r.movesTo_centredIn size.width size.height).kept _ _ v hv hi⟩
  nearest_x _ h₁ h₂ := natAbs_nearest_le h₁ h₂
  nearest_y _ h₁ h₂ := natAbs_nearest_le h₁ h₂
  pen := rfl

-- The canvas in another size.
def recentred (c : Canvas) (s : Size) : Canvas :=
  { c with
    raster := c.raster.centredIn s.width s.height
    cursor := shifted c.cursor (c.raster.offsetTo s.width s.height) s }

theorem isWhole_recentred (c : Canvas) (hs : size.IsFeasible) (hw : 0 < size.width) (hh : 0 < size.height) :
    (c.recentred size).IsWhole where
  wellFormed := c.raster.wellFormed_centredIn ..
  isFeasible := by rwa [recentred, Raster.size_centredIn]
  cursor := isOn_nearest hw hh _ _

theorem IsWhole.recentred_self (h : c.IsWhole) : c.recentred c.raster.size = c := by
  have hr : c.raster.centredIn c.raster.size.width c.raster.size.height = c.raster :=
    Raster.centredIn_self h.wellFormed h.isFeasible
  have ho : c.raster.offsetTo c.raster.size.width c.raster.size.height = ⟨0, 0⟩ := c.raster.offsetTo_self
  rw [recentred, hr, ho, shifted_zero h.cursor]

theorem IsWhole.resize_eq (h : c.IsWhole) (hs : size.IsFeasible) :
    c.resize size = .ok (c.recentred ⟨max size.width 1, max size.height 1⟩) := by
  have hs := hs.max_one
  unfold resize
  simp only
  split
  case isTrue he =>
    have hz : (⟨max size.width 1, max size.height 1⟩ : Size) = c.raster.size := by rw [he.left, he.right]; rfl
    rw [hz, h.recentred_self]
    rfl
  case isFalse =>
    simp only [Raster.migrate_of_feasible h.isFeasible hs, Checked.ok_bind,
      shiftCursor_of_isOn h.isFeasible hs h.cursor]
    rfl

-- Back in its own size, a canvas has the cells again that had a place in the other size, and its cursor, if
-- the cell of the cursor had one.
theorem get?_recentred_back (hr : c.raster.WellFormed) {x y : Int} (hi : c.raster.Inside x y) :
    ((c.recentred size).recentred c.raster.size).raster.get? x y =
      if (c.recentred size).raster.Inside (x + (c.raster.offsetTo size.width size.height).dx)
          (y + (c.raster.offsetTo size.width size.height).dy) then
        c.raster.get? x y
      else some Rgb.black := by
  have ⟨v, hv⟩ := Option.isSome_iff_exists.mp ((Raster.isSome_get?_iff hr).mpr hi)
  have hb := c.raster.get?_centredIn_back size.width size.height hi
  rw [hv]
  rw [hv] at hb
  exact hb

theorem IsWhole.cursor_recentred_back (h : c.IsWhole) (hs : size.IsFeasible)
    (hi : (c.recentred size).raster.Inside (c.cursor.x + (c.raster.offsetTo size.width size.height).dx)
      (c.cursor.y + (c.raster.offsetTo size.width size.height).dy)) :
    ((c.recentred size).recentred c.raster.size).cursor = c.cursor := by
  have hc : (c.recentred size).raster.size.IsFeasible := by rwa [recentred, Raster.size_centredIn]
  have ⟨hx, hy⟩ := (Raster.inside_iff hc).mp hi
  have hk : (c.recentred size).cursor = _ := shifted_of_mem hx hy
  have ho : (c.recentred size).raster.offsetTo c.raster.size.width c.raster.size.height = _ :=
    c.raster.offsetTo_back size.width size.height
  obtain ⟨⟨hx, hxw⟩, hy, hyh⟩ := h.cursor
  rw [recentred, hk, ho]
  simp only [shifted, Int.add_neg_cancel_right, nearest_of_mem hx hxw, nearest_of_mem hy hyh]

-- With room on all sides on the way, nothing is lost.
theorem IsWhole.recentred_back (h : c.IsWhole) (hs : size.IsFeasible) (hw : c.width ≤ size.width)
    (hh : c.height ≤ size.height) : (c.recentred size).recentred c.raster.size = c := by
  have hi {x y : Int} (hi : c.raster.Inside x y) : (c.recentred size).raster.Inside
      (x + (c.raster.offsetTo size.width size.height).dx)
      (y + (c.raster.offsetTo size.width size.height).dy) :=
    Raster.inside_centredIn_of_le h.isFeasible hs hw hh hi
  have hr : ((c.recentred size).recentred c.raster.size).raster = c.raster := by
    refine Raster.eq_of_get?_eq h.wellFormed (Raster.wellFormed_centredIn ..) h.isFeasible rfl fun x y hxy => ?_
    rw [get?_recentred_back h.wellFormed hxy, if_pos (hi hxy)]
  have hk := h.cursor_recentred_back hs (hi ((Raster.inside_iff h.isFeasible).mpr h.cursor))
  have he : (c.recentred size).recentred c.raster.size =
    { c with
      raster := ((c.recentred size).recentred c.raster.size).raster
      cursor := ((c.recentred size).recentred c.raster.size).cursor } := rfl
  rw [he, hr, hk]

-- Three cells in a row, with the cursor on a red one at their left end.
def narrow : Canvas where
  raster := (Raster.filled 3 1 Rgb.black).set 0 0 Color.red.rgb
  cursor := ⟨0, 0, true, .red, .pen⟩
  scale := 1.0
  screen := ⟨43, 41⟩
  colors := .empty colorLimit
  spray := .scripted (fun _ _ => true) 0

theorem size_narrow : narrow.raster.size = ⟨3, 1⟩ := by
  decide

theorem isWhole_narrow : narrow.IsWhole where
  wellFormed := by
    unfold Raster.WellFormed
    decide
  isFeasible := by
    rw [size_narrow]
    exact ⟨by decide, by decide, by decide⟩
  cursor := by
    rw [size_narrow]
    exact ⟨by decide, by decide⟩

-- The offset of the way back is the opposite one, so what had a place in the other size is where it was before.
theorem resize_there_and_back (h : c.IsWhole) (size : Size) (hs : size.IsFeasible) :
    ∃ c₁ c₂ o, c.resize size = .ok c₁ ∧ c₁.resize c.raster.size = .ok c₂ ∧
      c₁.raster.size = ⟨max size.width 1, max size.height 1⟩ ∧
      c.raster.migrate c₁.width c₁.height = .ok (c₁.raster, o) ∧
      c₂.raster.size = c.raster.size ∧
      (∀ x y, c.raster.Inside x y → c₂.raster.get? x y =
        if c₁.raster.Inside (x + o.dx) (y + o.dy) then c.raster.get? x y else some Rgb.black) ∧
      (c₁.raster.Inside (c.cursor.x + o.dx) (c.cursor.y + o.dy) → c₂.cursor = c.cursor) ∧
      (c.width ≤ size.width → c.height ≤ size.height → c₂ = c) := by
  have hm := hs.max_one
  have h₁ := c.isWhole_recentred hm (Nat.le_max_right ..) (Nat.le_max_right ..)
  have hb := h₁.resize_eq h.isFeasible
  rw [Nat.max_eq_left h.width_pos, Nat.max_eq_left h.height_pos] at hb
  refine ⟨_, _, _, h.resize_eq hs, hb, rfl, Raster.migrate_of_feasible h.isFeasible hm, rfl,
    fun x y hi => get?_recentred_back h.wellFormed hi, h.cursor_recentred_back hm, fun hw hh => ?_⟩
  exact h.recentred_back hm (Nat.le_trans hw (Nat.le_max_left ..)) (Nat.le_trans hh (Nat.le_max_left ..))

-- In one column there is no place for the red cell, in four columns there is.
theorem resize_there_and_back_of_narrow :
    narrow.IsWhole ∧
    (∃ c₁ c₂, narrow.resize ⟨1, 4⟩ = .ok c₁ ∧ c₁.resize narrow.raster.size = .ok c₂ ∧
      c₂.raster.get? 0 0 = some Rgb.black) ∧
    ∃ c₁, narrow.resize ⟨4, 2⟩ = .ok c₁ ∧ c₁.resize narrow.raster.size = .ok narrow := by
  have hw := isWhole_narrow
  refine ⟨hw, ?_, ?_⟩
  case refine_1 =>
    obtain ⟨c₁, c₂, o, h₁, h₂, hz, hm, _, hg, _⟩ :=
      resize_there_and_back hw ⟨1, 4⟩ ⟨by decide, by decide, by decide⟩
    obtain ⟨hc, ho⟩ := Raster.migrate_eq_ok hm
    have hx : c₁.width = 1 := congrArg Size.width hz
    have hy : c₁.height = 4 := congrArg Size.height hz
    rw [hx, hy] at hc ho
    have ho : o = ⟨-1, 1⟩ := ho.trans (by decide)
    subst ho
    have hn : ¬c₁.raster.Inside (0 + -1) (0 + 1) := by
      rw [hc]
      decide
    exact ⟨c₁, c₂, h₁, h₂, (hg 0 0 (by decide)).trans (if_neg hn)⟩
  case refine_2 =>
    obtain ⟨c₁, c₂, o, h₁, h₂, _, _, _, _, _, hg⟩ :=
      resize_there_and_back hw ⟨4, 2⟩ ⟨by decide, by decide, by decide⟩
    have he : c₂ = narrow := hg (by decide) (by decide)
    rw [he] at h₂
    exact ⟨c₁, h₁, h₂⟩

/-! Stored pictures -/

def restored (c : Canvas) (r : Raster) (k : Cursor) (colors : List Color) : Canvas :=
  { c with
    raster := r.centredIn c.width c.height
    cursor := shifted k (r.offsetTo c.width c.height) c.raster.size
    colors := ⟨lastOf colorLimit colors, colorLimit⟩ }

theorem shiftCursor_of_not_fits {o : Offset} {width height : Nat}
    (h : ¬(Checked.Fits32 (k.x + o.dx) ∧ Checked.Fits32 (k.y + o.dy))) :
    shiftCursor k o width height = .error .overflow := by
  by_cases hx : Checked.Fits32 (k.x + o.dx)
  case neg =>
    rw [shiftCursor, Checked.int32_of_not_fits hx]
    rfl
  case pos =>
    have hy : ¬Checked.Fits32 (k.y + o.dy) := fun hy => h ⟨hx, hy⟩
    rw [shiftCursor, Checked.int32_of_fits hx, Checked.ok_bind, Checked.int32_of_not_fits hy]
    rfl

-- The position of the cursor is the only thing that can stop it.
theorem restore_eq (hr : r.size.IsFeasible) (hc : c.raster.size.IsFeasible) (k : Cursor)
    (colors : List Color) :
    c.restore (some r) k colors =
      if Checked.Fits32 (k.x + (r.offsetTo c.width c.height).dx) ∧
          Checked.Fits32 (k.y + (r.offsetTo c.width c.height).dy) then
        .ok (c.restored r k colors)
      else .error .overflow := by
  have hm : r.migrate c.width c.height = _ := Raster.migrate_of_feasible hr hc
  simp only [restore, hm, Checked.ok_bind]
  split
  case isTrue h =>
    rw [shiftCursor_eq h.left h.right]
    rfl
  case isFalse h =>
    rw [shiftCursor_of_not_fits h]
    rfl

theorem restore_of_isOn (hr : r.size.IsFeasible) (hc : c.raster.size.IsFeasible) (hk : k.IsOn r.size)
    (colors : List Color) : c.restore (some r) k colors = .ok (c.restored r k colors) :=
  (restore_eq hr hc k colors).trans (if_pos (fits_of_isOn hr hc hk))

-- What is expected of a stored picture with its cursor and its colours.
structure TakesOver (c : Canvas) (r : Raster) (k : Cursor) (colors : List Color) (c' : Canvas) : Prop where
  size : c'.raster.size = c.raster.size
  isOn : c'.cursor.IsOn c'.raster.size
  cursor : c'.cursor = { k with
    x := nearest c.width (k.x + ((c.width : Int) - r.width).tdiv 2)
    y := nearest c.height (k.y + ((c.height : Int) - r.height).tdiv 2) }
  colors_suffix : c'.colors.items <:+ colors
  colors_length : c'.colors.length = min 20 colors.length

-- Any position of the cursor will do, if it is still a word after it has moved along with the picture.
theorem restore_takes_over_iff (h : c.IsWhole) (hr : r.size.IsFeasible) (k : Cursor) (colors : List Color) :
    ((∃ c', c.restore (some r) k colors = .ok c' ∧ c.TakesOver r k colors c') ↔
      Checked.Fits32 (k.x + ((c.width : Int) - r.width).tdiv 2) ∧
        Checked.Fits32 (k.y + ((c.height : Int) - r.height).tdiv 2)) ∧
    (c.restore (some r) k colors = .error .overflow ↔
      ¬(Checked.Fits32 (k.x + ((c.width : Int) - r.width).tdiv 2) ∧
        Checked.Fits32 (k.y + ((c.height : Int) - r.height).tdiv 2))) := by
  have ho : r.offsetTo c.width c.height = _ := Raster.offsetTo_eq hr h.isFeasible
  have hok : c.TakesOver r k colors (c.restored r k colors) := by
    refine ⟨rfl, isOn_nearest h.width_pos h.height_pos _ _, ?_, lastOf_suffix .., length_lastOf ..⟩
    rw [restored, shifted, ho]
    rfl
  rw [restore_eq hr h.isFeasible, ho]
  constructor
  case left =>
    constructor
    case mp =>
      rintro ⟨c', hc', _⟩
      by_contra hn
      rw [if_neg hn] at hc'
      cases hc'
    case mpr =>
      intro hf
      exact ⟨_, if_pos hf, hok⟩
  case right =>
    split
    case isTrue hf => simp [hf]
    case isFalse hf => simp [hf]

-- A picture of one cell moves by one column into the middle of three.
theorem restore_takes_over_of_narrow :
    (narrow.IsWhole ∧ (Raster.filled 1 1 Rgb.black).size.IsFeasible) ∧
    (∃ c', narrow.restore (some (.filled 1 1 Rgb.black)) ⟨-8, 0, true, .red, .pen⟩ [.blue] = .ok c' ∧
      c'.cursor = ⟨0, 0, true, .red, .pen⟩ ∧ c'.colors.length = 1) ∧
    narrow.restore (some (.filled 1 1 Rgb.black)) ⟨2147483647, 0, true, .red, .pen⟩ [] = .error .overflow := by
  have hw := isWhole_narrow
  have hr : (Raster.filled 1 1 Rgb.black).size.IsFeasible := ⟨by decide, by decide, by decide⟩
  refine ⟨⟨hw, hr⟩, ?_, ?_⟩
  case refine_1 =>
    obtain ⟨c', hc, ht⟩ := (restore_takes_over_iff hw hr ⟨-8, 0, true, .red, .pen⟩ [.blue]).left.mpr (by decide)
    exact ⟨c', hc, ht.cursor, ht.colors_length⟩
  case refine_2 => exact (restore_takes_over_iff hw hr ⟨2147483647, 0, true, .red, .pen⟩ []).right.mpr (by decide)

-- Both coordinates are words, and so are all sides, but the column after the last one is none.
theorem restore_stops_at_far_cursor :
    (Checked.Fits32 2147483647 ∧ Checked.Fits32 0) ∧
    ∃ c, ofSize ⟨3, 1⟩ (.seeded (.ofSeed 0)) = .ok c ∧
      c.restore (some (.filled 1 1 Rgb.black)) ⟨2147483647, 0, true, .white, .brush⟩ [] = .error .overflow := by
  have hr : (Raster.filled 1 1 Rgb.black).size.IsFeasible := ⟨by decide, by decide, by decide⟩
  have hc : Size.IsFeasible ⟨3, 1⟩ := ⟨by decide, by decide, by decide⟩
  refine ⟨by decide, _, rfl, (restore_eq hr ?_ _ _).trans (if_neg ?_)⟩
  case refine_1 => exact hc
  case refine_2 => decide

-- Pictures and cursors move by the same offset, whether a canvas is resized or takes over a stored picture.
theorem migration_moves_cells_and_cursor (hr : r.WellFormed) :
    (∀ width height r' o, r.migrate width height = .ok (r', o) →
      r'.size = ⟨width, height⟩ ∧ r.MovesTo o r') ∧
    (r.size.IsFeasible → ∀ width height, Size.IsFeasible ⟨width, height⟩ →
      ∃ r' o, r.migrate width height = .ok (r', o) ∧ r' = r.copied width height ∧
        (r.width ≤ width → r.height ≤ height →
          (∀ x y v, r.get? x y = some v → r'.get? (x + o.dx) (y + o.dy) = some v) ∧
          r'.paintedCount = r.paintedCount) ∧
        (width = r.width → height = r.height → r' = r ∧ o = ⟨0, 0⟩)) ∧
    (∀ (c : Canvas) (size : Size), c.raster = r → c.IsWhole → size.IsFeasible →
      ∃ c' o, c.resize size = .ok c' ∧ c'.raster.size = ⟨max size.width 1, max size.height 1⟩ ∧
        r.migrate c'.width c'.height = .ok (c'.raster, o) ∧ c.cursor.Follows r o c'.cursor c'.raster) ∧
    (∀ (c : Canvas) (k : Cursor) (colors : List Color), r.size.IsFeasible → k.IsOn r.size → c.IsWhole →
      ∃ c' o, c.restore (some r) k colors = .ok c' ∧ c'.raster.size = c.raster.size ∧
        r.migrate c'.width c'.height = .ok (c'.raster, o) ∧ k.Follows r o c'.cursor c'.raster) := by
  refine ⟨?cells, ?room, ?resized, ?restored⟩
  case cells =>
    intro width height r' o h
    obtain ⟨rfl, rfl⟩ := Raster.migrate_eq_ok h
    exact ⟨rfl, r.movesTo_centredIn width height⟩
  case room =>
    intro hf width height hs
    refine ⟨_, _, Raster.migrate_of_feasible hf hs, (r.copied_eq hs).symm, fun hw hh => ⟨fun x y v hv => ?_, ?_⟩,
      ?_⟩
    case refine_1 =>
      have hi := (Raster.isSome_get?_iff hr).mp (Option.isSome_of_eq_some hv)
      exact (r.movesTo_centredIn width height).kept x y v hv (Raster.inside_centredIn_of_le hf hs hw hh hi)
    case refine_2 => exact Raster.paintedCount_centredIn hr hf hs hw hh
    case refine_3 =>
      rintro rfl rfl
      exact ⟨Raster.centredIn_self hr hf, r.offsetTo_self⟩
  case resized =>
    rintro c size rfl h hs
    have hm := hs.max_one
    have hk := follows_shifted hr h.isFeasible hm (Nat.le_max_right ..) (Nat.le_max_right ..) h.cursor
    exact ⟨_, _, h.resize_eq hs, rfl, Raster.migrate_of_feasible h.isFeasible hm, hk⟩
  case restored =>
    intro c k colors hf hk h
    have hm : r.migrate c.width c.height = _ := Raster.migrate_of_feasible hf h.isFeasible
    have hk' := follows_shifted hr hf h.isFeasible h.width_pos h.height_pos hk
    exact ⟨_, _, restore_of_isOn hf h.isFeasible hk colors, rfl, hm, hk'⟩

-- In six columns, three cells begin at the second one.
theorem migration_moves_cells_and_cursor_of_narrow :
    narrow.raster.WellFormed ∧
    (∃ r', narrow.raster.migrate 6 2 = .ok (r', ⟨1, 0⟩) ∧ r'.get? 1 0 = some Color.red.rgb ∧
      r'.paintedCount = 1) ∧
    (∃ c', narrow.resize ⟨6, 0⟩ = .ok c' ∧ c'.raster.size = ⟨6, 1⟩ ∧ (c'.cursor.x, c'.cursor.y) = (1, 0)) ∧
    ∃ c', narrow.restore (some narrow.raster) narrow.cursor [] = .ok c' ∧
      c'.cursor = { narrow.cursor with x := c'.cursor.x, y := c'.cursor.y } := by
  have hw := isWhole_narrow
  have ⟨_, hroom, hresized, hrestored⟩ := migration_moves_cells_and_cursor hw.wellFormed
  refine ⟨hw.wellFormed, ?_, ?_, ?_⟩
  case refine_1 =>
    obtain ⟨r', o, hm, _, hg, _⟩ := hroom hw.isFeasible 6 2 ⟨by decide, by decide, by decide⟩
    obtain ⟨hk, hp⟩ := hg (by decide) (by decide)
    have ho : o = ⟨1, 0⟩ := (Raster.migrate_eq_ok hm).right.trans (by decide)
    subst ho
    exact ⟨r', hm, hk 0 0 _ (by decide), hp.trans (by decide)⟩
  case refine_2 =>
    obtain ⟨c', o, hr, hz, hm, hf⟩ := hresized narrow ⟨6, 0⟩ rfl hw ⟨by decide, by decide, by decide⟩
    obtain ⟨hc, ho⟩ := Raster.migrate_eq_ok hm
    have hx : c'.width = 6 := congrArg Size.width hz
    have hy : c'.height = 1 := congrArg Size.height hz
    rw [hx, hy] at hc ho
    have ho : o = ⟨1, 0⟩ := ho.trans (by decide)
    subst ho
    have hi : c'.raster.Inside 1 0 := by
      rw [hc]
      decide
    exact ⟨c', hr, hz, Prod.ext (hf.same hi).left.left (hf.same hi).left.right⟩
  case refine_3 =>
    obtain ⟨c', o, hr, hz, hm, hf⟩ := hrestored narrow narrow.cursor [] hw.isFeasible hw.cursor hw
    exact ⟨c', hr, hf.pen⟩

end Canvas

end Atelier
