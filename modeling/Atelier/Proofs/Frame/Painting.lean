import Atelier.Frame
import Atelier.Proofs.Checked
import Atelier.Proofs.Footprint

/-!
How a frame is painted: first the cells, pixel after pixel, then the marker over them. Nothing is read where
the raster has no cell, and nothing is written where the frame has no pixel.
-/

namespace Atelier

namespace Frame

-- Where a frame has pixels.
def Has (f : Frame) (x y : Int) : Prop :=
  (0 ≤ x ∧ x < f.width) ∧ 0 ≤ y ∧ y < f.height

instance (f : Frame) (x y : Int) : Decidable (f.Has x y) :=
  inferInstanceAs (Decidable (_ ∧ _))

-- A frame of a given size, with one pixel for each position.
structure IsSized (f : Frame) (s : Size) : Prop where
  width : f.width = s.width
  height : f.height = s.height
  pixels : f.pixels.size = f.width * f.height

-- A pixel that lies in the frame is written. There is no other.
def put? (f : Frame) (x y : Int) (p : Rgba) : Option Frame :=
  let i := y.toNat * f.width + x.toNat
  if h : f.Has x y ∧ i < f.pixels.size then some { f with pixels := f.pixels.set i p h.right } else none

-- What a pixel shows before the marker is on it. A cell that is not there cannot be read.
def ground? (c : Canvas) (column row : Lane) : Option Rgba :=
  match column.cell, row.cell with
  | some x, some y =>
    match c.raster.index? x y with
    | some i => c.raster.cells[i]?.map Rgb.solid
    | none => some outside
  | _, _ => some outside

def columnAt (c : Canvas) (scale : Float) (l : Layout) (x : Int) : Lane :=
  lane c.width scale c.cursor.x (l.origin.1 + x)

def rowAt (c : Canvas) (scale : Float) (l : Layout) (y : Int) : Lane :=
  lane c.height scale c.cursor.y (l.origin.2 + y)

-- All pixels without the marker, row by row.
def paintCells? (c : Canvas) (scale : Float) (l : Layout) : Option Frame := do
  let pixels ← (List.range (l.size.width * l.size.height)).mapM fun i =>
    ground? c (columnAt c scale l (i % l.size.width : Nat)) (rowAt c scale l (i / l.size.width : Nat))
  return ⟨l.size.width, l.size.height, pixels.toArray⟩

-- Paints some offsets from a position, as far as they lie in the frame.
def stamp? (f : Frame) (x y : Int) (p : Rgba) (os : List Offset) : Option Frame :=
  os.foldlM (fun f o => if f.Has (x + o.dx) (y + o.dy) then f.put? (x + o.dx) (y + o.dy) p else some f) f

def paint? (c : Canvas) (scale : Float) (l : Layout) : Option Frame := do
  let f ← paintCells? c scale l
  let x := pixelOf c.cursor.x scale - l.origin.1
  let y := pixelOf c.cursor.y scale - l.origin.2
  f.stamp? x y (marker c.cursor.penDown) (Offset.disk (cursorRadius scale))

variable {f g : Frame} {s : Size} {c : Canvas} {scale : Float} {l : Layout} {x y a b : Int}

theorem le_cursorRadius (scale : Float) : 5 ≤ cursorRadius scale := by
  unfold cursorRadius
  omega

theorem get?_of_has (h : f.Has x y) : f.get? x y = f.pixels[y.toNat * f.width + x.toNat]? := by
  obtain ⟨⟨hx, hxw⟩, hy, hyh⟩ := h
  exact if_pos ⟨hx, hy, hxw, hyh⟩

-- Where a pixel is kept, and which column and row that means.
theorem Has.index (h : f.Has x y) :
    y.toNat * f.width + x.toNat < f.width * f.height ∧
    (y.toNat * f.width + x.toNat) % f.width = x.toNat ∧ (y.toNat * f.width + x.toNat) / f.width = y.toNat := by
  obtain ⟨⟨hx, hxw⟩, hy, hyh⟩ := h
  have hx : x.toNat < f.width := by omega
  have hy : y.toNat + 1 ≤ f.height := by omega
  refine ⟨?_, ?_, ?_⟩
  case refine_1 =>
    have hm := Nat.mul_le_mul_right f.width hy
    rw [Nat.succ_mul, Nat.mul_comm f.height] at hm
    omega
  case refine_2 => rw [Nat.mul_add_mod', Nat.mod_eq_of_lt hx]
  case refine_3 =>
    rw [Nat.mul_comm, Nat.mul_add_div (Nat.zero_lt_of_lt hx), Nat.div_eq_of_lt hx, Nat.add_zero]

theorem Has.eq_of_index_eq (h : f.Has x y) (h' : f.Has a b)
    (he : y.toNat * f.width + x.toNat = b.toNat * f.width + a.toNat) : x = a ∧ y = b := by
  have ⟨_, hx, hy⟩ := h.index
  have ⟨_, ha, hb⟩ := h'.index
  rw [he, ha] at hx
  rw [he, hb] at hy
  obtain ⟨⟨_, _⟩, _, _⟩ := h
  obtain ⟨⟨_, _⟩, _, _⟩ := h'
  omega

theorem has_of_lt {i : Nat} (h : i < f.width * f.height) :
    f.Has (i % f.width : Nat) (i / f.width : Nat) := by
  have hw : 0 < f.width := Nat.pos_of_mul_pos_right (Nat.zero_lt_of_lt h)
  have hx := Nat.mod_lt i hw
  have hy : i / f.width < f.height := Nat.div_lt_of_lt_mul h
  exact ⟨⟨Int.natCast_nonneg _, Int.ofNat_lt.mpr hx⟩, Int.natCast_nonneg _, Int.ofNat_lt.mpr hy⟩

theorem IsSized.has_iff (hf : f.IsSized s) (hg : g.IsSized s) : f.Has x y ↔ g.Has x y := by
  rw [Has, Has, hf.width, hf.height, hg.width, hg.height]

-- A frame of a given size is nothing but its pixels.
theorem IsSized.eq_of_get?_eq (hf : f.IsSized s) (hg : g.IsSized s)
    (h : ∀ x y, f.Has x y → g.get? x y = f.get? x y) : g = f := by
  obtain ⟨w, h', ps⟩ := g
  cases hg.width.trans hf.width.symm
  cases hg.height.trans hf.height.symm
  congr 1
  apply Array.ext_getElem?
  intro i
  by_cases hi : i < f.width * f.height
  case pos =>
    have hp := has_of_lt hi
    have he := h _ _ hp
    rw [get?_of_has hp, get?_of_has ((hf.has_iff hg).mp hp)] at he
    simpa only [Int.toNat_natCast, Nat.div_add_mod'] using he
  case neg =>
    have hf : f.pixels.size ≤ i := Nat.le_trans (Nat.le_of_eq hf.pixels) (Nat.not_lt.mp hi)
    have hg : ps.size ≤ i := Nat.le_trans (Nat.le_of_eq hg.pixels) (Nat.not_lt.mp hi)
    rw [Array.getElem?_eq_none hf, Array.getElem?_eq_none hg]

/-! Painting the marker -/

theorem exists_put (hf : f.IsSized s) (h : f.Has x y) (p : Rgba) :
    ∃ g, f.put? x y p = some g ∧ g.IsSized s ∧
      ∀ a b, f.Has a b → g.get? a b = if a = x ∧ b = y then some p else f.get? a b := by
  have hi : y.toNat * f.width + x.toNat < f.pixels.size := hf.pixels ▸ h.index.left
  refine ⟨_, dif_pos ⟨h, hi⟩, ⟨hf.width, hf.height, (Array.size_set hi).trans hf.pixels⟩, ?_⟩
  intro a b hp
  rw [get?_of_has hp, get?_of_has (f := { f with pixels := f.pixels.set _ p hi }) hp, Array.getElem?_set]
  split
  case isTrue he =>
    obtain ⟨rfl, rfl⟩ := h.eq_of_index_eq hp he
    rw [if_pos ⟨rfl, rfl⟩]
  case isFalse hn =>
    rw [if_neg]
    rintro ⟨rfl, rfl⟩
    exact hn rfl

theorem eq_offset_iff {o : Offset} : ⟨a - x, b - y⟩ = o ↔ a = x + o.dx ∧ b = y + o.dy := by
  obtain ⟨dx, dy⟩ := o
  rw [Offset.mk.injEq]
  dsimp only
  omega

-- The offsets are painted one after the other, so a pixel is painted if any of them comes to lie on it.
theorem exists_stamp (hf : f.IsSized s) (x y : Int) (p : Rgba) (os : List Offset) :
    ∃ g, f.stamp? x y p os = some g ∧ g.IsSized s ∧
      ∀ a b, f.Has a b → g.get? a b = if ⟨a - x, b - y⟩ ∈ os then some p else f.get? a b := by
  induction os generalizing f
  case nil => exact ⟨f, rfl, hf, fun _ _ _ => by simp⟩
  case cons o os ih =>
    have hs : f.stamp? x y p (o :: os) =
        (if f.Has (x + o.dx) (y + o.dy) then f.put? (x + o.dx) (y + o.dy) p else some f).bind
          (·.stamp? x y p os) := rfl
    rw [hs]
    by_cases hp : f.Has (x + o.dx) (y + o.dy)
    case pos =>
      obtain ⟨f', he, hf', hput⟩ := exists_put hf hp p
      obtain ⟨g, hg, hgs, hget⟩ := ih hf'
      rw [if_pos hp, he]
      refine ⟨g, hg, hgs, ?_⟩
      intro a b hab
      rw [hget a b ((hf.has_iff hf').mp hab), hput a b hab]
      simp only [List.mem_cons, eq_offset_iff]
      split <;> simp_all
    case neg =>
      obtain ⟨g, hg, hgs, hget⟩ := ih hf
      rw [if_neg hp]
      refine ⟨g, hg, hgs, ?_⟩
      intro a b hab
      have hn : ¬(a = x + o.dx ∧ b = y + o.dy) := by
        rintro ⟨rfl, rfl⟩
        exact hp hab
      rw [hget a b hab]
      simp only [List.mem_cons, eq_offset_iff, hn, false_or]

/-! Painting the cells -/

-- A frame whose pixels are computed one by one.
def ofLayout (c : Canvas) (scale : Float) (l : Layout) : Frame :=
  let { width, height } := l.size
  let columns := lanes c.width scale c.cursor.x l.origin.1 width
  let rows := lanes c.height scale c.cursor.y l.origin.2 height
  ⟨width, height, Array.ofFn fun (i : Fin (width * height)) =>
    pixel c (cursorRadius scale) (columns.getD (i % width) default) (rows.getD (i / width) default)⟩

theorem isSized_ofLayout (c : Canvas) (scale : Float) (l : Layout) : (ofLayout c scale l).IsSized l.size :=
  ⟨rfl, rfl, Array.size_ofFn⟩

theorem getD_lanes {side count i : Nat} {cursor origin : Int} (h : i < count) :
    (lanes side scale cursor origin count).getD i default = lane side scale cursor (origin + i) := by
  simp [lanes, h]

theorem get?_ofLayout (h : (ofLayout c scale l).Has x y) :
    (ofLayout c scale l).get? x y =
      some (pixel c (cursorRadius scale) (columnAt c scale l x) (rowAt c scale l y)) := by
  have ⟨hi, hx, hy⟩ := h.index
  rw [get?_of_has h]
  obtain ⟨⟨hx₀, hxw⟩, hy₀, hyh⟩ := h
  have hxw : x.toNat < l.size.width := by
    have hxw : x < l.size.width := hxw
    omega
  have hyh : y.toNat < l.size.height := by
    have hyh : y < l.size.height := hyh
    omega
  have hi : y.toNat * l.size.width + x.toNat < l.size.width * l.size.height := hi
  have hx : (y.toNat * l.size.width + x.toNat) % l.size.width = x.toNat := hx
  have hy : (y.toNat * l.size.width + x.toNat) / l.size.width = y.toNat := hy
  simp only [ofLayout, Array.getElem?_ofFn, hi, dite_true, hx, hy, getD_lanes hxw, getD_lanes hyh,
    Int.toNat_of_nonneg hx₀, Int.toNat_of_nonneg hy₀]
  rfl

-- What a pixel shows before the marker is on it.
def ground (c : Canvas) (column row : Lane) : Rgba :=
  match column.cell, row.cell with
  | some x, some y => ((c.raster.get? x y).map Rgb.solid).getD outside
  | _, _ => outside

theorem pixel_eq (c : Canvas) (radius : Int) (column row : Lane) :
    pixel c radius column row =
      if (⟨column.distance, row.distance⟩ : Offset).norm2 ≤ radius * radius then marker c.cursor.penDown
      else ground c column row :=
  rfl

-- An index that the raster gives is inside of it, so there is a cell to read.
theorem ground?_eq (hc : c.raster.WellFormed) (column row : Lane) :
    ground? c column row = some (ground c column row) := by
  unfold ground? ground
  split
  case h_2 => rfl
  case h_1 x y _ _ =>
    unfold Raster.get?
    cases hi : c.raster.index? x y
    case none => rfl
    case some i =>
      have hlt : i < c.raster.cells.size := hc ▸ Raster.index?_lt hi
      simp [hlt]

theorem exists_paintCells (hc : c.raster.WellFormed) (scale : Float) (l : Layout) :
    ∃ f, paintCells? c scale l = some f ∧ f.IsSized l.size ∧
      ∀ x y, f.Has x y → f.get? x y = some (ground c (columnAt c scale l x) (rowAt c scale l y)) := by
  let pixels := (List.range (l.size.width * l.size.height)).map fun i =>
    ground c (columnAt c scale l (i % l.size.width : Nat)) (rowAt c scale l (i / l.size.width : Nat))
  have hp : paintCells? c scale l = some ⟨l.size.width, l.size.height, pixels.toArray⟩ := by
    rw [paintCells?, Checked.mapM_eq_pure fun _ _ => ground?_eq hc ..]
    rfl
  refine ⟨_, hp, ⟨rfl, rfl, by simp [pixels]⟩, ?_⟩
  intro x y h
  have ⟨hi, hx, hy⟩ := h.index
  obtain ⟨⟨hx₀, _⟩, hy₀, _⟩ := id h
  rw [get?_of_has h]
  dsimp only at hi hx hy ⊢
  simp only [pixels, List.getElem?_toArray, List.getElem?_map, List.getElem?_range hi, Option.map_some, hx, hy,
    Int.toNat_of_nonneg hx₀, Int.toNat_of_nonneg hy₀]

theorem paint?_eq (hc : c.raster.WellFormed) (scale : Float) (l : Layout) :
    paint? c scale l = some (ofLayout c scale l) := by
  have ho := isSized_ofLayout c scale l
  obtain ⟨f, hf, hfs, hground⟩ := exists_paintCells hc scale l
  obtain ⟨g, hg, hgs, hget⟩ := exists_stamp hfs (pixelOf c.cursor.x scale - l.origin.1)
    (pixelOf c.cursor.y scale - l.origin.2) (marker c.cursor.penDown) (Offset.disk (cursorRadius scale))
  have hs : paint? c scale l = some g := by
    rw [paint?, hf]
    exact hg
  rw [hs]
  congr 1
  apply ho.eq_of_get?_eq hgs
  intro x y h
  have hfxy := (ho.has_iff hfs).mp h
  have hr : 0 ≤ cursorRadius scale := Int.le_trans (by decide) (le_cursorRadius scale)
  have hx : l.origin.1 + x - pixelOf c.cursor.x scale = x - (pixelOf c.cursor.x scale - l.origin.1) := by omega
  have hy : l.origin.2 + y - pixelOf c.cursor.y scale = y - (pixelOf c.cursor.y scale - l.origin.2) := by omega
  rw [hget x y hfxy, get?_ofLayout h, pixel_eq, hground x y hfxy]
  simp only [Offset.mem_disk_iff hr, columnAt, rowAt, lane, hx, hy]
  split <;> rfl

end Frame

end Atelier
