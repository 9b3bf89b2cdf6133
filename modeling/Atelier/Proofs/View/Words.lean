import Atelier.Proofs.Canvas.Sound
import Atelier.View

/-!
The numbers of the views. On a canvas that is short enough, whatever a view computes with is a word.
-/

namespace Atelier.View

-- What the views of a canvas compute with are words. A density looks further around a position than
-- anything else does.
structure Fits (c : Canvas) : Prop where
  window : ∀ zoomedOut dx dy, dx ∈ span (-(windowHalf c zoomedOut : Int)) (windowHalf c zoomedOut) →
    dy ∈ span (-(windowHalf c zoomedOut : Int)) (windowHalf c zoomedOut) →
    densityAt c.raster (c.cursor.x + dx) (c.cursor.y + dy) densityRadius =
      .ok (density c.raster (c.cursor.x + dx) (c.cursor.y + dy) densityRadius)
  columns : Checked.Fits32 (c.width + step c - 1)
  rows : Checked.Fits32 (c.height + step c - 1)

variable {c : Canvas}

theorem windowHalf_le (c : Canvas) (zoomedOut : Bool) : windowHalf c zoomedOut ≤ 37 := by
  unfold windowHalf
  simp only
  split <;> omega

theorem densityAt_of_fits {r : Raster} {x y radius : Int} (hr : 0 ≤ radius)
    (hx : -2147483648 ≤ x - radius ∧ x + radius ≤ 2147483647)
    (hy : -2147483648 ≤ y - radius ∧ y + radius ≤ 2147483647) :
    densityAt r x y radius = .ok (density r x y radius) := by
  have h {i : Int} (hi : -2147483648 ≤ i ∧ i ≤ 2147483647) : Checked.int32 i = .ok i := if_pos hi
  rw [densityAt, h (by omega), h (by omega), h (by omega), h (by omega), h (by omega), if_pos hr]
  rfl

theorem fits_of_isShort (hs : c.raster.size.IsShort) (hk : c.cursor.IsOn c.raster.size) : Fits c := by
  obtain ⟨hw, hh⟩ : c.width ≤ 2 ^ 30 ∧ c.height ≤ 2 ^ 30 := hs
  obtain ⟨hx, hy⟩ := Canvas.isOn_iff.mp hk
  have hs : step c ≤ 2 ^ 30 := by
    unfold step
    have hd := Nat.div_le_self (max c.width c.height) compressedSide
    omega
  refine ⟨fun zoomedOut dx dy hdx hdy => ?_, ?_, ?_⟩
  case refine_1 =>
    have hl := windowHalf_le c zoomedOut
    rw [mem_span_iff] at hdx hdy
    refine densityAt_of_fits (by decide) ?_ ?_
    all_goals
      unfold densityRadius
      omega
  all_goals
    unfold Checked.Fits32
    omega

theorem fits_of_sound (h : c.Sound) : Fits c :=
  fits_of_isShort h.raster.isShort h.cursor

end Atelier.View
