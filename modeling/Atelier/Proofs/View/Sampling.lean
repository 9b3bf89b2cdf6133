import Atelier.Proofs.Decimal.Padded
import Atelier.Proofs.View.Lines

/-!
How large the sampled canvas gets. The distance of the samples is rounded down, so a side that does not divide
evenly gets more samples than it should.
-/

namespace Atelier.View

variable {c : Canvas}

theorem step_pos (c : Canvas) : 0 < step c :=
  Nat.lt_of_lt_of_le Nat.zero_lt_one (Nat.le_max_left ..)

theorem samples_le_iff {side distance n : Nat} (h : 0 < distance) :
    samples side distance ≤ n ↔ side ≤ distance * n := by
  rw [samples, Nat.div_le_iff_le_mul_add_pred h]
  omega

theorem sampleGlyph_ne_newline (c : Canvas) (x y : Nat) : sampleGlyph c x y ≠ '\n' := by
  unfold sampleGlyph
  split
  case isTrue => exact cursorGlyph_ne_newline _
  case isFalse =>
    cases c.raster.get? x y
    case none => decide
    case some v => exact v.glyph_ne_newline

theorem newline_not_mem_heading {heading : String} (h : (compressed c).heading = some heading) :
    '\n' ∉ heading.toList := by
  cases h
  simp [toString, Decimal.not_mem_toDigits]

theorem lines_compressed (c : Canvas) :
    (compressed c).lines =
      s!"[FULL CANVAS COMPRESSED VIEW - {c.width}×{c.height} → {samples c.width (step c)}×{samples c.height (step c)}]" ::
        (compressed c).rows.map String.ofList := by
  have hr : ∀ row ∈ (compressed c).rows, '\n' ∉ row := by
    intro row hrow hn
    obtain ⟨i, _, rfl⟩ := List.mem_map.mp hrow
    obtain ⟨j, _, hj⟩ := List.mem_map.mp hn
    exact sampleGlyph_ne_newline _ _ _ hj
  exact lines_eq rfl (newline_not_mem_heading rfl) hr

theorem grid_compressed (c : Canvas) :
    (compressed c).grid = (List.range (samples c.height (step c))).map fun i =>
      String.ofList ((List.range (samples c.width (step c))).map fun j =>
        sampleGlyph c (j * step c) (i * step c)) := by
  rw [grid, lines_compressed, List.tail_cons, compressed, List.map_map]
  rfl

theorem length_grid (c : Canvas) : (compressed c).grid.length = samples c.height (step c) := by
  rw [grid_compressed, List.length_map, List.length_range]

theorem length_of_mem_grid {row : String} (h : row ∈ (compressed c).grid) :
    row.length = samples c.width (step c) := by
  rw [grid_compressed] at h
  obtain ⟨i, _, rfl⟩ := List.mem_map.mp h
  rw [String.length_ofList, List.length_map, List.length_range]

theorem exists_mem_grid (h : 0 < c.height) : ∃ row, row ∈ (compressed c).grid := by
  apply List.exists_mem_of_length_pos
  rw [length_grid, Nat.pos_iff_ne_zero]
  intro hn
  have hz := (samples_le_iff (step_pos c)).mp (Nat.le_of_eq hn)
  omega

-- Columns and rows have the same distance, so the longer side decides.
theorem grid_le_iff (h : 0 < c.height) (n : Nat) :
    ((compressed c).grid.length ≤ n ∧ ∀ row ∈ (compressed c).grid, row.length ≤ n) ↔
      max c.width c.height ≤ step c * n := by
  have hs := step_pos c
  have hall : (∀ row ∈ (compressed c).grid, row.length ≤ n) ↔ samples c.width (step c) ≤ n := by
    constructor
    case mp =>
      intro hl
      obtain ⟨row, hrow⟩ := exists_mem_grid h
      exact length_of_mem_grid hrow ▸ hl row hrow
    case mpr =>
      intro hl row hrow
      rwa [length_of_mem_grid hrow]
  rw [hall, length_grid, samples_le_iff hs, samples_le_iff hs, and_comm, Nat.max_le]

-- The canvas fits into sixty columns and rows only if its longer side is a multiple of sixty, or no longer
-- than that. In any case, less than twice as many do.
theorem compressed_fits_iff (h : 0 < c.height) :
    (((compressed c).grid.length ≤ 60 ∧ ∀ row ∈ (compressed c).grid, row.length ≤ 60) ↔
      max c.width c.height ≤ 60 ∨ 60 ∣ max c.width c.height) ∧
    (compressed c).grid.length ≤ 119 ∧ ∀ row ∈ (compressed c).grid, row.length ≤ 119 := by
  have hs : step c = max 1 (max c.width c.height / 60) := rfl
  rw [grid_le_iff h, grid_le_iff h, hs]
  generalize max c.width c.height = m
  omega

-- A canvas of which the samples are five cells apart.
def broad : Canvas where
  raster := .filled 300 120 Rgb.black
  cursor := ⟨150, 60, true, .white, .brush⟩
  scale := 1.0
  screen := ⟨340, 160⟩
  colors := .empty Canvas.colorLimit
  spray := .scripted (fun _ _ => true) 0

theorem compressed_fits_of_broad :
    0 < broad.height ∧ (compressed broad).grid.length ≤ 60 ∧ ∀ row ∈ (compressed broad).grid, row.length ≤ 60 := by
  have hh : 0 < broad.height := by decide
  exact ⟨hh, (compressed_fits_iff hh).left.mpr (.inr (by decide))⟩

-- With one column more than sixty, no column is left out.
theorem compressed_of_sixty_one_columns :
    ∃ c, Canvas.ofSize ⟨61, 1⟩ (.seeded (.ofSeed 0)) = .ok c ∧
      ¬∀ row ∈ (compressed c).grid, row.length ≤ 60 := by
  have hn {c : Canvas} (hw : c.width = 61) (hh : c.height = 1) :
      ¬∀ row ∈ (compressed c).grid, row.length ≤ 60 := by
    intro hl
    obtain ⟨row, hrow⟩ := exists_mem_grid (hh ▸ Nat.one_pos)
    have hle := hl row hrow
    rw [length_of_mem_grid hrow, step, hw, hh] at hle
    revert hle
    decide
  exact ⟨_, rfl, hn rfl rfl⟩

end Atelier.View
