import Atelier.Proofs.Canvas.Sound
import Atelier.Proofs.Frame.Painting
import Atelier.Proofs.Frame.Scaling

/-!
Frames of a fixed size. The cursor is in their middle, whatever part of the canvas is in sight, and the marker
covers the pixels around it as far as the frame goes. A frame is made unless it would have too many bytes.
-/

namespace Atelier.Frame

open Checked

variable {c : Canvas} {scale : Float} {size : Size} {l : Layout} {x y : Int}

-- The numbers that come up while a frame is painted: where its pixels lie on the enlarged canvas, and for each
-- offset that the marker could have, how far it reaches and where it lies in the frame.
structure Countable (c : Canvas) (scale : Float) (l : Layout) : Prop where
  column : ∀ x : Nat, x < l.size.width → Fits64 (l.origin.1 + x)
  row : ∀ y : Nat, y < l.size.height → Fits64 (l.origin.2 + y)
  middle : Fits64 (pixelOf c.cursor.x scale - l.origin.1) ∧ Fits64 (pixelOf c.cursor.y scale - l.origin.2)
  radius : Fits64 (cursorRadius scale * cursorRadius scale)
  offset : ∀ dx ∈ span (-cursorRadius scale) (cursorRadius scale),
    ∀ dy ∈ span (-cursorRadius scale) (cursorRadius scale),
      (Fits64 (dx * dx) ∧ Fits64 (dy * dy) ∧ Fits64 (dx * dx + dy * dy)) ∧
      Fits64 (pixelOf c.cursor.x scale - l.origin.1 + dx) ∧ Fits64 (pixelOf c.cursor.y scale - l.origin.2 + dy)

theorem cursorRadius_le (scale : Float) : cursorRadius scale ≤ 2147483647 :=
  Int.max_le.mpr ⟨by decide, truncate32_le _⟩

-- The layout that has the cursor in its middle.
def centredLayout (c : Canvas) (scale : Float) (size : Size) : Layout where
  size := ⟨max size.width 1, max size.height 1⟩
  origin := (pixelOf c.cursor.x scale - (max size.width 1 / 2 : Nat),
    pixelOf c.cursor.y scale - (max size.height 1 / 2 : Nat))

-- The cursor is not too far away on the enlarged canvas.
def HasNearCursor (c : Canvas) (scale : Float) : Prop :=
  (0 ≤ pixelOf c.cursor.x scale ∧ pixelOf c.cursor.x scale ≤ 2 ^ 45) ∧
    0 ≤ pixelOf c.cursor.y scale ∧ pixelOf c.cursor.y scale ≤ 2 ^ 45

theorem hasNearCursor (hw : c.raster.size.IsWord) (hk : c.cursor.IsOn c.raster.size) (hf : scale.isFinite)
    (hs : scale ≤ 1000.0) : HasNearCursor c (clampScale scale) := by
  obtain ⟨⟨hx, hxw⟩, hy, hyh⟩ := hk
  have hxw : c.cursor.x < 2 ^ 32 := Int.lt_trans hxw (Int.ofNat_lt.mpr hw.left)
  have hyh : c.cursor.y < 2 ^ 32 := Int.lt_trans hyh (Int.ofNat_lt.mpr hw.right)
  exact ⟨pixelOf_bounds hx hxw hf hs, pixelOf_bounds hy hyh hf hs⟩

theorem layout_centered (hp : HasNearCursor c scale) (hz : size.IsWord) :
    layout c scale (.centered size) = .ok (centredLayout c scale size) := by
  obtain ⟨⟨_, _⟩, _, _⟩ := hp
  obtain ⟨_, _⟩ := hz
  rw [layout, int64_of_fits ⟨by omega, by omega⟩, ok_bind, int64_of_fits ⟨by omega, by omega⟩, ok_bind]
  rfl

theorem countable_centredLayout (hp : HasNearCursor c scale) (hz : size.IsWord) :
    Countable c scale (centredLayout c scale size) := by
  obtain ⟨⟨hx₀, hx⟩, hy₀, hy⟩ := hp
  obtain ⟨hw, hh⟩ := hz
  have hl := le_cursorRadius scale
  have hr := cursorRadius_le scale
  have hrr : cursorRadius scale * cursorRadius scale ≤ 2147483647 * 2147483647 :=
    mul_self_le_mul_self (by omega) hr
  have hrr₀ := mul_self_nonneg (cursorRadius scale)
  unfold centredLayout
  constructor
  case column =>
    intro x (hxw : x < max size.width 1)
    constructor <;> dsimp only <;> omega
  case row =>
    intro y (hyh : y < max size.height 1)
    constructor <;> dsimp only <;> omega
  case middle => constructor <;> constructor <;> dsimp only <;> omega
  case radius => constructor <;> omega
  case offset =>
    intro dx hdx dy hdy
    have hdx' := mul_self_le_of_mem_span hdx
    have hdy' := mul_self_le_of_mem_span hdy
    have hdx₀ := mul_self_nonneg dx
    have hdy₀ := mul_self_nonneg dy
    obtain ⟨_, _⟩ := mem_span_iff.mp hdx
    obtain ⟨_, _⟩ := mem_span_iff.mp hdy
    dsimp only
    unfold Fits64
    omega

theorem fits_bytes_iff {width height : Nat} :
    Fits64 (4 * (width : Int) * height) ↔ 4 * width * height < 2 ^ 63 := by
  have hb : 4 * (width : Int) * height = (4 * width * height : Nat) := by
    push_cast
    rfl
  rw [hb]
  generalize 4 * width * height = bytes
  unfold Fits64
  omega

-- The number of bytes is all that can stop a frame.
theorem ofCanvas_centered (hp : HasNearCursor c (clampScale scale)) (hz : size.IsWord)
    (hb : 4 * max size.width 1 * max size.height 1 < 2 ^ 63) :
    ofCanvas c scale (.centered size) =
      .ok (ofLayout c (clampScale scale) (centredLayout c (clampScale scale) size)) := by
  have hl := le_cursorRadius (clampScale scale)
  have hr := cursorRadius_le (clampScale scale)
  have hlayout := layout_centered hp hz
  obtain ⟨⟨hx₀, hx⟩, hy₀, hy⟩ := hp
  obtain ⟨hw, hh⟩ := hz
  unfold ofCanvas
  dsimp only
  rw [hlayout, ok_bind]
  unfold centredLayout
  dsimp only
  rw [int64_of_fits (fits_bytes_iff.mpr hb), discard_ok, ok_bind,
    run64_of_fits ⟨by omega, by omega⟩ ⟨by omega, by omega⟩, ok_bind,
    run64_of_fits ⟨by omega, by omega⟩ ⟨by omega, by omega⟩, ok_bind,
    run64_of_fits ⟨by omega, by omega⟩ ⟨by omega, by omega⟩, ok_bind,
    run64_of_fits ⟨by omega, by omega⟩ ⟨by omega, by omega⟩, ok_bind]
  rfl

theorem ofCanvas_centered_of_large (hp : HasNearCursor c (clampScale scale)) (hz : size.IsWord)
    (hb : 2 ^ 63 ≤ 4 * max size.width 1 * max size.height 1) :
    ofCanvas c scale (.centered size) = .error .overflow := by
  have hn : ¬Fits64 (4 * ((max size.width 1 : Nat) : Int) * (max size.height 1 : Nat)) :=
    mt fits_bytes_iff.mp (Nat.not_lt.mpr hb)
  unfold ofCanvas
  dsimp only
  rw [layout_centered hp hz, ok_bind]
  unfold centredLayout
  dsimp only
  rw [int64_of_not_fits hn]
  rfl

theorem ground_cases (c : Canvas) (column row : Lane) :
    ground c column row = outside ∨ ∃ i j v, c.raster.get? i j = some v ∧ ground c column row = v.solid := by
  unfold ground
  split
  case h_2 => exact .inl rfl
  case h_1 i j _ _ =>
    cases hv : c.raster.get? i j
    case none => exact .inl rfl
    case some v => exact .inr ⟨i, j, v, hv, rfl⟩

-- Whether a pixel is under the marker is a matter of its distance from the middle alone.
theorem get?_centredLayout (h : (ofLayout c scale (centredLayout c scale size)).Has x y) :
    (ofLayout c scale (centredLayout c scale size)).get? x y =
      some (if (⟨x - (size.width / 2 : Nat), y - (size.height / 2 : Nat)⟩ : Offset).norm2 ≤
          cursorRadius scale * cursorRadius scale then marker c.cursor.penDown
        else ground c (columnAt c scale (centredLayout c scale size) x)
          (rowAt c scale (centredLayout c scale size) y)) := by
  have hx : pixelOf c.cursor.x scale - (max size.width 1 / 2 : Nat) + x - pixelOf c.cursor.x scale =
      x - (size.width / 2 : Nat) := by omega
  have hy : pixelOf c.cursor.y scale - (max size.height 1 / 2 : Nat) + y - pixelOf c.cursor.y scale =
      y - (size.height / 2 : Nat) := by omega
  rw [get?_ofLayout h, pixel_eq, ← hx, ← hy]
  rfl

-- A frame of a fixed size has that size and the cursor in its middle, and it is painted without leaving the
-- frame, the raster or the words of 64 bits, unless it has too many bytes.
theorem centred_frame_shows_cursor (hc : c.raster.WellFormed) (hw : c.raster.size.IsWord)
    (hk : c.cursor.IsOn c.raster.size) (hf : scale.isFinite) (hs : scale ≤ 1000.0) (hz : size.IsWord) :
    (4 * max 1 size.width * max 1 size.height < 2 ^ 63 →
      ∃ f, ofCanvas c scale (.centered size) = .ok f ∧
        (f.width = max 1 size.width ∧ f.height = max 1 size.height ∧ f.pixels.size = f.width * f.height) ∧
        (∀ x y, f.Has x y →
          if (⟨x - (size.width / 2 : Nat), y - (size.height / 2 : Nat)⟩ : Offset).norm2 ≤
              cursorRadius scale * cursorRadius scale then
            f.get? x y = some (marker c.cursor.penDown)
          else
            f.get? x y = some outside ∨ ∃ i j v, c.raster.get? i j = some v ∧ f.get? x y = some v.solid) ∧
        ∃ l, layout c (clampScale scale) (.centered size) = .ok l ∧ Countable c (clampScale scale) l ∧
          paint? c (clampScale scale) l = some f) ∧
    (2 ^ 63 ≤ 4 * max 1 size.width * max 1 size.height →
      ofCanvas c scale (.centered size) = .error .overflow) := by
  have hp := hasNearCursor hw hk hf hs
  rw [Nat.max_comm 1, Nat.max_comm 1]
  refine ⟨fun hb => ?_, ofCanvas_centered_of_large hp hz⟩
  refine ⟨_, ofCanvas_centered hp hz hb, ⟨rfl, rfl, (isSized_ofLayout ..).pixels⟩, ?_,
    _, layout_centered hp hz, countable_centredLayout hp hz, paint?_eq hc ..⟩
  intro x y h
  have hg := get?_centredLayout h
  rw [cursorRadius_clampScale hf] at hg
  rw [hg]
  split
  case isTrue => rfl
  case isFalse =>
    obtain h | ⟨i, j, v, hv, h⟩ := ground_cases c _ _
    case inl => exact .inl (congrArg some h)
    case inr => exact .inr ⟨i, j, v, hv, congrArg some h⟩

-- One cell, with the pen on it.
def single : Canvas where
  raster := .filled 1 1 Rgb.black
  cursor := ⟨0, 0, true, .white, .brush⟩
  scale := 1.0
  screen := ⟨41, 41⟩
  colors := .empty Canvas.colorLimit
  spray := .scripted (fun _ _ => true) 0

-- What a frame of it needs, at any scale that is asked for here.
theorem isWhole_single :
    single.raster.WellFormed ∧ single.raster.size.IsWord ∧ single.cursor.IsOn single.raster.size :=
  ⟨Raster.wellFormed_filled 1 1 Rgb.black, by decide, by decide, by decide⟩

-- The marker hangs over a strip on both long sides. At both ends there is a pixel that it does not reach.
theorem centred_frame_shows_cursor_of_strip :
    (single.raster.WellFormed ∧ single.raster.size.IsWord ∧ single.cursor.IsOn single.raster.size) ∧
    ((0.05 : Float).isFinite ∧ (0.05 : Float) ≤ 1000.0 ∧ Size.IsWord ⟨12, 0⟩) ∧
    ∃ f, ofCanvas single 0.05 (.centered ⟨12, 0⟩) = .ok f ∧ (f.width = 12 ∧ f.height = 1) ∧
      f.get? 1 0 = some (marker true) ∧ f.get? 11 0 = some (marker true) ∧
      (f.get? 0 0 = some outside ∨ ∃ i j v, single.raster.get? i j = some v ∧ f.get? 0 0 = some v.solid) := by
  have ⟨hc, hw, hk⟩ := isWhole_single
  have hf : (0.05 : Float).isFinite := by decide
  have hs : (0.05 : Float) ≤ 1000.0 := by decide
  have hz : Size.IsWord ⟨12, 0⟩ := by decide
  have hr : cursorRadius 0.05 = 5 := cursorRadius_of_small (.finite _ (by decide) (by decide))
  have ⟨hframe, _⟩ := centred_frame_shows_cursor hc hw hk hf hs hz
  obtain ⟨f, he, ⟨hfw, hfh, _⟩, hp, _⟩ := hframe (by decide)
  rw [hr] at hp
  have hhas {x : Int} (hx : 0 ≤ x) (hx' : x < 12) : f.Has x 0 := by
    unfold Has
    rw [hfw, hfh]
    exact ⟨⟨hx, hx'⟩, by decide, by decide⟩
  refine ⟨isWhole_single, ⟨hf, hs, hz⟩, f, he, ⟨hfw, hfh⟩, ?_, ?_, ?_⟩
  case refine_1 => exact hp 1 0 (hhas (by decide) (by decide))
  case refine_2 => exact hp 11 0 (hhas (by decide) (by decide))
  case refine_3 => exact hp 0 0 (hhas (by decide) (by decide))

-- Its bytes are more than can be counted.
theorem largest_window_has_no_frame :
    (single.raster.WellFormed ∧ single.raster.size.IsWord ∧ single.cursor.IsOn single.raster.size) ∧
    ((1.0 : Float).isFinite ∧ (1.0 : Float) ≤ 1000.0 ∧ Size.IsWord ⟨4294967295, 4294967295⟩) ∧
    ∀ f, ofCanvas single 1.0 (.centered ⟨4294967295, 4294967295⟩) ≠ .ok f := by
  have ⟨_, hw, hk⟩ := isWhole_single
  have hf : (1.0 : Float).isFinite := by decide
  have hs : (1.0 : Float) ≤ 1000.0 := by decide
  have hz : Size.IsWord ⟨4294967295, 4294967295⟩ := by decide
  refine ⟨isWhole_single, ⟨hf, hs, hz⟩, fun f he => ?_⟩
  rw [ofCanvas_centered_of_large (hasNearCursor hw hk hf hs) hz (by decide)] at he
  contradiction

end Atelier.Frame
