import Atelier.Proofs.Canvas.Recentring
import Atelier.Proofs.View.Glyphs
import Atelier.Proofs.View.Sampling
import Atelier.Proofs.View.Words

/-!
What the sampled canvas shows. Its grid has a row for each sampled row of the canvas, and a glyph for each sampled
column. The samples around the cursor show the cursor, and all others show their cell.
-/

namespace Atelier.View

-- A sampled column or row is less than one step away from that of the cursor.
def Touches (distance : Nat) (x : Int) (i : Nat) : Prop :=
  ((i * distance : Nat) - x).natAbs < distance

instance (distance : Nat) (x : Int) (i : Nat) : Decidable (Touches distance x i) :=
  inferInstanceAs (Decidable (_ < _))

variable {c : Canvas} {i j side distance : Nat} {x y : Int}

/-! Sampled columns and rows -/

theorem lt_samples_iff (h : 0 < distance) : i < samples side distance ↔ i * distance < side := by
  rw [← Nat.not_le, samples_le_iff h, Nat.not_le, Nat.mul_comm]

theorem touches_div (h : 0 < distance) (hx : 0 ≤ x) : Touches distance x (x.toNat / distance) := by
  have hm := Nat.mod_lt x.toNat h
  have hd := Nat.div_add_mod' x.toNat distance
  unfold Touches
  omega

theorem eq_of_touches (hx : 0 ≤ x) (h : Touches distance x i) :
    i = x.toNat / distance ∨ i = x.toNat / distance + 1 := by
  unfold Touches at h
  have hp : 0 < distance := Nat.zero_lt_of_lt h
  have hm := Nat.mod_lt x.toNat hp
  have hd := Nat.div_add_mod' x.toNat distance
  generalize x.toNat / distance = q at hd
  obtain hl | hl | hl : i < q ∨ (i = q ∨ i = q + 1) ∨ q + 2 ≤ i := by omega
  case inl =>
    have hq := Nat.mul_le_mul_right distance hl
    rw [Nat.succ_mul] at hq
    omega
  case inr.inl => exact hl
  case inr.inr =>
    have hq := Nat.mul_le_mul_right distance hl
    rw [Nat.add_mul] at hq
    omega

-- On either side of the cursor there is at most one, and one is as close as rounding down can tell.
theorem countP_touches (h : 0 < distance) (hx : 0 ≤ x) (hs : x < side) :
    0 < (List.range (samples side distance)).countP (Touches distance x) ∧
      (List.range (samples side distance)).countP (Touches distance x) ≤ 2 := by
  constructor
  case left =>
    refine List.countP_pos_iff.mpr ⟨x.toNat / distance, ?_, decide_eq_true (touches_div h hx)⟩
    rw [List.mem_range, lt_samples_iff h]
    have hd := Nat.div_mul_le_self x.toNat distance
    omega
  case right =>
    have hq : (List.range (samples side distance)).filter (Touches distance x) ⊆
        [x.toNat / distance, x.toNat / distance + 1] := by
      intro i hi
      rw [List.mem_pair]
      exact eq_of_touches hx (of_decide_eq_true (List.mem_filter.mp hi).right)
    rw [List.countP_eq_length_filter]
    exact (List.subperm_of_subset (List.nodup_range.filter _) hq).length_le

/-! Glyphs of the grid -/

theorem glyphAt?_grid (hi : i < samples c.height (step c)) (hj : j < samples c.width (step c)) :
    glyphAt? (compressed c).grid i j = some (sampleGlyph c (j * step c) (i * step c)) := by
  simp [glyphAt?, grid_compressed, hi, hj]

theorem sampleGlyph_of_touches (hx : Touches (step c) c.cursor.x j) (hy : Touches (step c) c.cursor.y i) :
    sampleGlyph c (j * step c) (i * step c) = cursorGlyph c.cursor.penDown :=
  if_pos ⟨hx, hy⟩

theorem sampleGlyph_of_not_touches (h : ¬(Touches (step c) c.cursor.x j ∧ Touches (step c) c.cursor.y i)) :
    sampleGlyph c (j * step c) (i * step c) =
      ((c.raster.get? (j * step c : Nat) (i * step c : Nat)).map Rgb.glyph).getD wall :=
  if_neg h

theorem sampleGlyph_eq_cursorGlyph_iff :
    sampleGlyph c (j * step c) (i * step c) = cursorGlyph c.cursor.penDown ↔
      Touches (step c) c.cursor.x j ∧ Touches (step c) c.cursor.y i := by
  refine ⟨fun hg => ?_, fun ⟨hx, hy⟩ => sampleGlyph_of_touches hx hy⟩
  by_contra hn
  rw [sampleGlyph_of_not_touches hn] at hg
  cases hc : c.raster.get? (j * step c : Nat) (i * step c : Nat)
  case none =>
    rw [hc] at hg
    exact wall_ne_cursorGlyph _ hg
  case some v =>
    rw [hc] at hg
    exact v.glyph_ne_cursorGlyph _ hg

-- The samples are on the canvas, so none of them is a wall.
theorem exists_cell_of_sample (h : c.IsWhole) (hi : i < samples c.height (step c))
    (hj : j < samples c.width (step c)) :
    ∃ v, c.raster.get? (j * step c : Nat) (i * step c : Nat) = some v := by
  rw [lt_samples_iff (step_pos c)] at hi hj
  exact h.exists_cell ⟨Int.natCast_nonneg _, Int.ofNat_lt.mpr hj⟩ ⟨Int.natCast_nonneg _, Int.ofNat_lt.mpr hi⟩

theorem wall_not_mem_grid (h : c.IsWhole) {row : String} (hr : row ∈ (compressed c).grid) : wall ∉ row.toList := by
  intro hw
  rw [grid_compressed] at hr
  obtain ⟨i, hi, rfl⟩ := List.mem_map.mp hr
  rw [String.toList_ofList] at hw
  obtain ⟨j, hj, hw⟩ := List.mem_map.mp hw
  by_cases ht : Touches (step c) c.cursor.x j ∧ Touches (step c) c.cursor.y i
  case pos =>
    rw [sampleGlyph_of_touches ht.left ht.right] at hw
    exact wall_ne_cursorGlyph _ hw.symm
  case neg =>
    obtain ⟨v, hv⟩ := exists_cell_of_sample h (List.mem_range.mp hi) (List.mem_range.mp hj)
    rw [sampleGlyph_of_not_touches ht, hv] at hw
    exact v.glyph_ne_wall hw

/-! The cursor in the grid -/

theorem sum_map_ite (is : List α) (p : α → Bool) (n : Nat) :
    (is.map fun i => if p i then n else 0).sum = is.countP p * n := by
  induction is
  case nil => simp
  case cons i is ih =>
    rw [List.map_cons, List.sum_cons, ih, List.countP_cons]
    split <;> simp_all [Nat.add_mul, Nat.add_comm]

theorem count_row (c : Canvas) (i n : Nat) :
    ((List.range n).map fun j => sampleGlyph c (j * step c) (i * step c)).count (cursorGlyph c.cursor.penDown) =
      if decide (Touches (step c) c.cursor.y i) then (List.range n).countP (Touches (step c) c.cursor.x) else 0 := by
  rw [List.count, List.countP_map]
  split
  case isTrue hy =>
    apply List.countP_congr
    intro j _
    simp [sampleGlyph_eq_cursorGlyph_iff, of_decide_eq_true hy]
  case isFalse hy =>
    rw [List.countP_eq_zero]
    intro j _
    simpa [sampleGlyph_eq_cursorGlyph_iff] using fun _ => of_decide_eq_false (Bool.eq_false_iff.mpr hy)

-- The cursor is in each of the rows that it touches, once for each of the columns that it touches.
theorem count_cursorGlyph (c : Canvas) :
    ((compressed c).grid.flatMap String.toList).count (cursorGlyph c.cursor.penDown) =
      (List.range (samples c.height (step c))).countP (Touches (step c) c.cursor.y) *
        (List.range (samples c.width (step c))).countP (Touches (step c) c.cursor.x) := by
  rw [grid_compressed, List.flatMap_map, List.count_flatMap, ← sum_map_ite]
  congr 1
  apply List.map_congr_left
  intro i _
  rw [Function.comp_apply, String.toList_ofList, count_row]

theorem count_cursorGlyph_bounds (h : c.IsWhole) :
    0 < ((compressed c).grid.flatMap String.toList).count (cursorGlyph c.cursor.penDown) ∧
      ((compressed c).grid.flatMap String.toList).count (cursorGlyph c.cursor.penDown) ≤ 4 := by
  obtain ⟨⟨hx, hxw⟩, hy, hyh⟩ := Canvas.isOn_iff.mp h.cursor
  have ⟨hc, hc'⟩ := countP_touches (step_pos c) hx hxw
  have ⟨hr, hr'⟩ := countP_touches (step_pos c) hy hyh
  rw [count_cursorGlyph]
  exact ⟨Nat.mul_pos hr hc, Nat.mul_le_mul hr' hc'⟩

-- The heading announces just the grid that follows. It has all the rows and columns of the canvas that are
-- multiples of the step, and each of its glyphs shows the cursor if that is less than a step away, and else the
-- colour of the cell.
theorem samples_show_canvas (h : c.IsWhole) :
    let s := step c
    let grid := (compressed c).grid
    let shown := cursorGlyph c.cursor.penDown
    ∃ columns rows : Nat,
      (compressed c).lines.head? =
        some s!"[FULL CANVAS COMPRESSED VIEW - {c.width}×{c.height} → {columns}×{rows}]" ∧
      grid.length = rows ∧ (∀ row ∈ grid, row.length = columns) ∧
      (∀ i, i < rows ↔ i * s < c.height) ∧ (∀ j, j < columns ↔ j * s < c.width) ∧
      (∀ i j, i < rows → j < columns →
        (glyphAt? grid i j = some shown ↔
          ((j * s : Nat) - c.cursor.x).natAbs < s ∧ ((i * s : Nat) - c.cursor.y).natAbs < s) ∧
        (glyphAt? grid i j ≠ some shown →
          ∃ v, c.raster.get? (j * s : Nat) (i * s : Nat) = some v ∧ glyphAt? grid i j = some v.glyph)) ∧
      (0 < (grid.flatMap String.toList).count shown ∧ (grid.flatMap String.toList).count shown ≤ 4) ∧
      (∀ row ∈ grid, wall ∉ row.toList) ∧ (c.raster.size.IsShort → Fits c) := by
  intro s grid shown
  have hs := step_pos c
  refine ⟨samples c.width s, samples c.height s, ?heading, length_grid c, fun _ => length_of_mem_grid,
    fun _ => lt_samples_iff hs, fun _ => lt_samples_iff hs, fun i j hi hj => ?glyph,
    count_cursorGlyph_bounds h, fun _ => wall_not_mem_grid h, fun hz => fits_of_isShort hz h.cursor⟩
  case heading => rw [lines_compressed, List.head?_cons]
  case glyph =>
    have hg := glyphAt?_grid hi hj
    have ht := sampleGlyph_eq_cursorGlyph_iff (c := c) (i := i) (j := j)
    refine ⟨by rw [hg, Option.some_inj, ht]; rfl, fun hn => ?_⟩
    obtain ⟨v, hv⟩ := exists_cell_of_sample h hi hj
    rw [hg, ne_eq, Option.some_inj, ht] at hn
    rw [sampleGlyph_of_not_touches hn, hv] at hg
    exact ⟨v, hv, hg⟩

-- A red canvas of one row, of which every other cell is sampled. The last sample is to the right of the cursor.
def thin : Canvas where
  raster := .filled 122 1 Color.red.rgb
  cursor := ⟨119, 0, false, .red, .brush⟩
  scale := 1.0
  screen := ⟨162, 41⟩
  colors := .empty Canvas.colorLimit
  spray := .scripted (fun _ _ => true) 0

theorem isWhole_thin : thin.IsWhole where
  wellFormed := Raster.wellFormed_filled 122 1 Color.red.rgb
  isFeasible := ⟨by decide, by decide, by decide⟩
  cursor := ⟨by decide, by decide⟩

-- The cursor is between two samples and in both of them.
theorem samples_show_canvas_of_thin :
    thin.IsWhole ∧ (compressed thin).grid.length = 1 ∧ glyphAt? (compressed thin).grid 0 59 = some '○' ∧
      glyphAt? (compressed thin).grid 0 60 = some '○' ∧ glyphAt? (compressed thin).grid 0 58 = some 'R' := by
  obtain ⟨columns, rows, _, hl, _, hr, hc, hg, _⟩ := samples_show_canvas isWhole_thin
  have hrows : rows = 1 := by
    have h₀ := (hr 0).mpr (by decide)
    have h₁ := (hr 1).not.mpr (by decide)
    omega
  have hcolumn {j : Nat} (hj : j ≤ 60) : j < columns := by
    have h₆₀ := (hc 60).mpr (by decide)
    omega
  have h {j : Nat} (hj : j ≤ 60) := hg 0 j (hrows ▸ Nat.one_pos) (hcolumn hj)
  have hred : thin.raster.get? (58 * step thin : Nat) (0 * step thin : Nat) = some Color.red.rgb :=
    (Raster.get?_filled ..).trans (if_pos (by decide))
  have hn : glyphAt? (compressed thin).grid 0 58 ≠ some '○' := (h (by decide)).left.not.mpr (by decide)
  obtain ⟨v, hv, h₅₈⟩ := (h (by decide)).right hn
  rw [hred] at hv
  cases hv
  exact ⟨isWhole_thin, hl.trans hrows, (h (by decide)).left.mpr (by decide), (h (by decide)).left.mpr (by decide), h₅₈⟩

end Atelier.View
