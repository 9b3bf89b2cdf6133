import Atelier.Proofs.Canvas.Sound
import Atelier.Proofs.Footprint
import Mathlib.Data.Finset.Card

/-!
What a stroke paints: the cells of the canvas under the footprint of the tool, each once, and no others.
-/

namespace Atelier

namespace Canvas

variable {c c' : Canvas} {n : Nat} {o : Offset}

-- What the tool of the cursor paints, as an offset. A spray paints what its source says yes to.
def Covers (c : Canvas) (o : Offset) : Prop :=
  match c.cursor.tool.footprint with
  | .fixed os => o ∈ os
  | .spray => c.spray.Accepts Spray.reach o

-- The source of the spray after a stroke. Only a spray asks it, about each cell of the disk.
def sprayAfter (c : Canvas) : Spray :=
  match c.cursor.tool.footprint with
  | .fixed _ => c.spray
  | .spray => c.spray.after Spray.reach

-- The cells of the canvas that a stroke writes.
def struck (c : Canvas) : Finset (Int × Int) :=
  ((c.footprint.1.map fun o => (c.cursor.x + o.dx, c.cursor.y + o.dy)).filter fun p =>
    c.raster.Inside p.1 p.2).toFinset

theorem mem_footprint_iff : o ∈ c.footprint.1 ↔ c.Covers o := by
  unfold footprint Covers
  cases c.cursor.tool.footprint
  case fixed => rfl
  case spray => exact Spray.mem_pick_iff

theorem footprint_source (c : Canvas) : c.footprint.2 = c.sprayAfter := by
  unfold footprint sprayAfter
  cases c.cursor.tool.footprint
  case fixed => rfl
  case spray => exact Spray.pick_source Spray.reach c.spray

theorem nodup_footprint (c : Canvas) : c.footprint.1.Nodup := by
  unfold footprint
  split
  case h_1 h => exact Offset.nodup_footprint h
  case h_2 => exact c.spray.nodup_cells

theorem mem_struck_iff {x y : Int} :
    (x, y) ∈ c.struck ↔ c.raster.Inside x y ∧ c.Covers ⟨x - c.cursor.x, y - c.cursor.y⟩ := by
  rw [struck, List.mem_toFinset, List.mem_filter, decide_eq_true_iff, Raster.mem_map_add_iff,
    mem_footprint_iff, and_comm]

-- No offset is listed twice, so counting the offsets on the canvas counts cells.
theorem card_struck (c : Canvas) :
    c.struck.card =
      c.footprint.1.countP fun o => c.raster.Inside (c.cursor.x + o.dx) (c.cursor.y + o.dy) := by
  have hn : (c.footprint.1.map fun o => (c.cursor.x + o.dx, c.cursor.y + o.dy)).Nodup := by
    refine c.nodup_footprint.map fun o p h => ?_
    obtain ⟨hx, hy⟩ := Prod.mk.inj h
    obtain ⟨dx, dy⟩ := o
    obtain ⟨dx', dy'⟩ := p
    simp only [Offset.mk.injEq] at hx hy ⊢
    omega
  rw [struck, List.toFinset_card_of_nodup (hn.filter _), ← List.countP_eq_length_filter, List.countP_map]
  rfl

theorem stroke_eq_ok (h : c.stroke = .ok (c', n)) :
    c' = { c with
      raster := c.raster.paint c.cursor.x c.cursor.y c.cursor.color.rgb c.footprint.1
      spray := c.sprayAfter } ∧ n = c.struck.card := by
  obtain ⟨_, _, h⟩ := Checked.bind_eq_ok_iff.mp h
  cases h
  rw [← footprint_source]
  exact ⟨rfl, c.card_struck.symm⟩

theorem get?_stroke_or (h : c.stroke = .ok (c', n)) (x y : Int) :
    c'.raster.get? x y = c.raster.get? x y ∨
      c'.raster.get? x y = some c.cursor.color.rgb ∧ (x, y) ∈ c.struck := by
  obtain ⟨rfl, _⟩ := stroke_eq_ok h
  rw [mem_struck_iff, ← mem_footprint_iff]
  exact c.raster.get?_paint_or ..

theorem get?_stroke (hr : c.raster.WellFormed) (h : c.stroke = .ok (c', n)) (x y : Int) :
    c'.raster.get? x y = if (x, y) ∈ c.struck then some c.cursor.color.rgb else c.raster.get? x y := by
  obtain ⟨rfl, _⟩ := stroke_eq_ok h
  simp only [Raster.get?_paint hr, mem_struck_iff, ← mem_footprint_iff]

theorem wellFormed_stroke (hr : c.raster.WellFormed) (h : c.stroke = .ok (c', n)) : c'.raster.WellFormed := by
  obtain ⟨rfl, _⟩ := stroke_eq_ok h
  exact Raster.wellFormed_paint hr ..

-- At the right and the lower edge of a canvas that is nearly as long as its words, positions off the canvas
-- would be no words any more.
theorem exists_stroke (hk : c.raster.Inside c.cursor.x c.cursor.y) (hw : c.width + 20 ≤ 2 ^ 31)
    (hh : c.height + 20 ≤ 2 ^ 31) : ∃ c' n, c.stroke = .ok (c', n) := by
  obtain ⟨⟨hx, hxw⟩, hy, hyh⟩ := hk
  have hsw := Raster.sideWord_le c.raster.width
  have hsh := Raster.sideWord_le c.raster.height
  unfold width at hw
  unfold height at hh
  refine ⟨_, _, stroke_of_fits fun o ho => ?_⟩
  obtain ⟨hdx, hdy⟩ := ho
  unfold Checked.Fits32
  omega

-- A stroke gives its colour to the cells of the canvas that its tool covers and counts them. Nothing else
-- changes but the source of the spray, which is asked once about each cell of the disk, row by row.
theorem stroke_paints_footprint (hr : c.raster.WellFormed) (hk : c.raster.Inside c.cursor.x c.cursor.y) :
    (c.width + 20 ≤ 2 ^ 31 → c.height + 20 ≤ 2 ^ 31 → ∃ c' n, c.stroke = .ok (c', n)) ∧
    (∀ c' n, c.stroke = .ok (c', n) →
      (∀ x y, c'.raster.get? x y =
        if (x, y) ∈ c.struck then some c.cursor.color.rgb else c.raster.get? x y) ∧
      n = c.struck.card ∧ c'.raster.size = c.raster.size ∧ c'.raster.WellFormed ∧
      c' = { c with raster := c'.raster, spray := c.sprayAfter }) ∧
    (∀ x y, (x, y) ∈ c.struck ↔
      c.raster.Inside x y ∧ c.Covers ⟨x - c.cursor.x, y - c.cursor.y⟩) ∧
    Spray.reach.Pairwise Offset.IsBefore ∧ ∀ o, o ∈ Spray.reach ↔ o.norm2 ≤ 400 := by
  refine ⟨exists_stroke hk, fun c' n h => ⟨get?_stroke hr h, ?count, ?size, wellFormed_stroke hr h, ?frame⟩,
    fun _ _ => mem_struck_iff, Spray.pairwise_reach, fun _ => Spray.mem_reach_iff⟩
  case count => exact (stroke_eq_ok h).right
  case size =>
    obtain ⟨rfl, _⟩ := stroke_eq_ok h
    exact c.raster.size_paint ..
  case frame =>
    obtain ⟨rfl, _⟩ := stroke_eq_ok h
    rfl

-- A canvas of eight by eight cells, with a pen in its upper right corner.
def cornered : Canvas where
  raster := .filled 8 8 Rgb.black
  cursor := ⟨7, 0, true, .red, .pen⟩
  scale := 1.0
  screen := ⟨48, 48⟩
  colors := .empty colorLimit
  spray := .scripted (fun _ _ => true) 0

-- Of the nine cells of the pen, five are off the canvas.
theorem stroke_paints_footprint_of_cornered :
    (cornered.raster.WellFormed ∧ cornered.raster.Inside cornered.cursor.x cornered.cursor.y) ∧
    ∃ c', cornered.stroke = .ok (c', 4) ∧ c'.raster.get? 6 1 = some Color.red.rgb ∧
      c'.raster.get? 0 1 = some Rgb.black ∧ c'.raster.size = ⟨8, 8⟩ := by
  have hr : cornered.raster.WellFormed := Raster.wellFormed_filled 8 8 Rgb.black
  have hk : cornered.raster.Inside cornered.cursor.x cornered.cursor.y := by decide
  have hs : cornered.struck = {(6, 0), (7, 0), (6, 1), (7, 1)} := by decide +kernel
  have ⟨ht, hp, _⟩ := stroke_paints_footprint hr hk
  obtain ⟨c', n, h⟩ := ht (by decide) (by decide)
  obtain ⟨hg, hn, hz, _⟩ := hp c' n h
  rw [hs] at hg hn
  have h₆ := hg 6 1
  have h₀ := hg 0 1
  rw [if_pos (by decide)] at h₆
  have hb : cornered.raster.get? 0 1 = some Rgb.black := by decide +kernel
  rw [if_neg (by decide), hb] at h₀
  cases hn
  exact ⟨⟨hr, hk⟩, c', h, h₆, h₀, hz⟩

end Canvas

end Atelier
