import Atelier.Proofs.Canvas.Recentring
import Atelier.Proofs.Session.Opening

/-!
Sessions that find a picture in their data folder, but no state. The picture is centred, and the cursor goes along
as if it had been on that picture: it leaves the middle unless both have the same size, or nearly so.
-/

namespace Atelier

namespace Canvas

variable {c : Canvas} {r : Raster}

-- Where a cursor in the middle of a side goes with a picture of another side length.
def movedMiddle (side stored : Nat) : Int :=
  nearest side ((side / 2 : Nat) + ((side : Int) - stored).tdiv 2)

-- A single cell is its own middle. The last condition is about pictures without cells.
def KeepsMiddle (side stored : Nat) : Prop :=
  side = 1 ∨ ((side : Int) - stored).natAbs ≤ 1 ∨ side = 2 ∧ stored = 0

instance (side stored : Nat) : Decidable (KeepsMiddle side stored) :=
  inferInstanceAs (Decidable (_ ∨ _))

theorem movedMiddle_eq_iff {side : Nat} (h : 0 < side) (stored : Nat) :
    movedMiddle side stored = (side / 2 : Nat) ↔ KeepsMiddle side stored := by
  unfold movedMiddle KeepsMiddle nearest
  rw [Int.tdiv_eq_ediv, Int.sign_eq_one_of_pos (by decide)]
  split <;> omega

theorem fits_middle {side stored : Nat} (h : side < 2 ^ 31) (hs : stored < 2 ^ 31) :
    Checked.Fits32 ((side / 2 : Nat) + ((side : Int) - stored).tdiv 2) := by
  have ⟨hg, hl⟩ := half_bounds ((side : Int) - stored)
  unfold Checked.Fits32
  omega

-- A new canvas with a stored picture, and with its cursor moved along.
def withPicture (c : Canvas) (r : Raster) : Canvas :=
  { c with
    raster := r.centredIn c.width c.height
    cursor := { c.cursor with x := movedMiddle c.width r.width, y := movedMiddle c.height r.height } }

theorem IsNew.restore_eq (h : c.IsNew) (hc : c.raster.size.IsFeasible) (hr : r.size.IsFeasible) :
    c.restore (some r) c.cursor [] = .ok (c.withPicture r) := by
  have ho : r.offsetTo c.width c.height = _ := Raster.offsetTo_eq hr hc
  have hx : c.cursor.x = (c.width / 2 : Nat) := congrArg Cursor.x h.cursor
  have hy : c.cursor.y = (c.height / 2 : Nat) := congrArg Cursor.y h.cursor
  have hf := And.intro (fits_middle hc.width_lt hr.width_lt) (fits_middle hc.height_lt hr.height_lt)
  rw [Canvas.restore_eq hr hc, ho]
  simp only [hx, hy]
  refine (if_pos hf).trans ?_
  rw [restored, shifted, ho, withPicture, hx, hy, h.colors]
  rfl

theorem cursor_withPicture_eq_iff (h : c.IsNew) (r : Raster) :
    (c.withPicture r).cursor = c.cursor ↔ KeepsMiddle c.width r.width ∧ KeepsMiddle c.height r.height := by
  rw [← movedMiddle_eq_iff h.width_pos, ← movedMiddle_eq_iff h.height_pos, withPicture, h.cursor]
  simp

end Canvas

namespace Session

variable {s s₀ : Session} {settings : Settings} {model : Model} {folder : Folder} {random : Random}
variable {spray : Spray} {now : Instant} {zone : Zone} {r : Raster}

theorem canvas_start (h : start settings model folder random spray now zone = .ok s) :
    Canvas.ofScreen settings.usableScreen Canvas.minScale spray = .ok s.canvas := by
  obtain ⟨c, hc, h⟩ := Checked.bind_eq_ok_iff.mp h
  obtain ⟨_, _, h⟩ := Checked.bind_eq_ok_iff.mp h
  cases h
  exact hc

theorem load_of_picture (h₀ : start settings model folder random spray now zone = .ok s₀)
    (hs : Store.loadState? folder = none) (hr : Store.loadCanvas? folder = some r)
    (hc : s₀.canvas.raster.size.IsFeasible) (hz : r.size.IsFeasible) :
    load settings model folder random spray now zone =
      .ok (s₀.resumeMemory.withCanvas (s₀.canvas.withPicture r)) := by
  have hn := Canvas.isNew_ofScreen (canvas_start h₀)
  have hf : s₀.folder = folder := by
    obtain ⟨_, _, rfl⟩ := start_eq_ok h₀
    rfl
  rw [load, h₀, Checked.ok_bind]
  simp only [resume, resumePicture, folder_resumeMemory, canvas_resumeMemory, hf, hs, hr]
  rw [hn.restore_eq hc hz, Checked.ok_bind]
  rfl

-- The picture is taken over in any case. The cursor stays in the middle only if it is not moved at all.
theorem picture_keeps_middle_iff (h₀ : start settings model folder random spray now zone = .ok s₀)
    (hs : Store.loadState? folder = none) (hr : Store.loadCanvas? folder = some r)
    (hc : s₀.canvas.raster.size.IsFeasible) (hz : r.size.IsFeasible) :
    ∃ s, load settings model folder random spray now zone = .ok s ∧
      s₀.canvas.cursor = ⟨(s₀.canvas.width / 2 : Nat), (s₀.canvas.height / 2 : Nat), true, .white, .brush⟩ ∧
      s.canvas = { s₀.canvas with
        raster := r.centredIn s₀.canvas.width s₀.canvas.height
        cursor := { s₀.canvas.cursor with
          x := Canvas.movedMiddle s₀.canvas.width r.width
          y := Canvas.movedMiddle s₀.canvas.height r.height } } ∧
      (s.canvas.cursor = s₀.canvas.cursor ↔
        Canvas.KeepsMiddle s₀.canvas.width r.width ∧ Canvas.KeepsMiddle s₀.canvas.height r.height) := by
  have hn := Canvas.isNew_ofScreen (canvas_start h₀)
  exact ⟨_, load_of_picture h₀ hs hr hc hz, hn.cursor, rfl, Canvas.cursor_withPicture_eq_iff hn r⟩

-- A screen on which a canvas has four by four cells.
def tinyScreen : Settings :=
  { Settings.standard with screen := ⟨44, 44⟩ }

def holding (r : Raster) : Folder :=
  Folder.empty.put Store.canvasPath (.file (.picture r))

def silent : Model :=
  .ofSource (.scripted [])

theorem picture_keeps_middle_iff_of_near_size :
    Store.loadState? (holding (.filled 5 3 Rgb.black)) = none ∧
    Store.loadCanvas? (holding (.filled 5 3 Rgb.black)) = some (.filled 5 3 Rgb.black) ∧
    (Raster.filled 5 3 Rgb.black).size.IsFeasible ∧
    ∃ s₀ s, start tinyScreen silent (holding (.filled 5 3 Rgb.black)) (.ofSeed 0) (.seeded (.ofSeed 0)) ⟨0, 0⟩ =
        .ok s₀ ∧
      s₀.canvas.raster.size.IsFeasible ∧
      load tinyScreen silent (holding (.filled 5 3 Rgb.black)) (.ofSeed 0) (.seeded (.ofSeed 0)) ⟨0, 0⟩ = .ok s ∧
      s.canvas.raster.size = ⟨4, 4⟩ ∧ s.canvas.cursor = s₀.canvas.cursor := by
  have hd : (start tinyScreen silent (holding (.filled 5 3 Rgb.black)) (.ofSeed 0) (.seeded (.ofSeed 0))
      ⟨0, 0⟩).toOption.any fun s => s.canvas.raster.size = ⟨4, 4⟩ := by
    decide +kernel
  obtain ⟨s₀, h₀, hd⟩ := Checked.exists_eq_ok_of_any hd
  have hs : s₀.canvas.raster.size = ⟨4, 4⟩ := of_decide_eq_true hd
  have ⟨hw, hh⟩ : s₀.canvas.width = 4 ∧ s₀.canvas.height = 4 := Size.mk.inj hs
  have hc : s₀.canvas.raster.size.IsFeasible := hs ▸ ⟨by decide, by decide, by decide⟩
  have hz : (Raster.filled 5 3 Rgb.black).size.IsFeasible := ⟨by decide, by decide, by decide⟩
  obtain ⟨s, hl, _, hp, hi⟩ := picture_keeps_middle_iff h₀ rfl rfl hc hz
  refine ⟨rfl, rfl, hz, s₀, s, h₀, hc, hl, ?_, hi.mpr ?_⟩
  case refine_1 =>
    rw [hp, ← hs]
    rfl
  case refine_2 =>
    rw [hw, hh]
    decide

-- Without a state, the middle of a canvas of four by four cells is lost to a picture of eight by eight.
theorem picture_moves_cursor :
    Store.loadState? (holding (.filled 8 8 Color.red.rgb)) = none ∧
    Store.loadCanvas? (holding (.filled 8 8 Color.red.rgb)) = some (.filled 8 8 Color.red.rgb) ∧
    ∃ s₀ s, start tinyScreen silent (holding (.filled 8 8 Color.red.rgb)) (.ofSeed 0) (.seeded (.ofSeed 0)) ⟨0, 0⟩ =
        .ok s₀ ∧
      load tinyScreen silent (holding (.filled 8 8 Color.red.rgb)) (.ofSeed 0) (.seeded (.ofSeed 0)) ⟨0, 0⟩ =
        .ok s ∧
      s₀.canvas.cursor = ⟨2, 2, true, .white, .brush⟩ ∧ s.canvas.cursor = ⟨0, 0, true, .white, .brush⟩ := by
  have h₀ : (start tinyScreen silent (holding (.filled 8 8 Color.red.rgb)) (.ofSeed 0) (.seeded (.ofSeed 0))
      ⟨0, 0⟩).toOption.any fun s => s.canvas.cursor = ⟨2, 2, true, .white, .brush⟩ := by
    decide +kernel
  have hl : (load tinyScreen silent (holding (.filled 8 8 Color.red.rgb)) (.ofSeed 0) (.seeded (.ofSeed 0))
      ⟨0, 0⟩).toOption.any fun s => s.canvas.cursor = ⟨0, 0, true, .white, .brush⟩ := by
    decide +kernel
  obtain ⟨s₀, h₀, hk₀⟩ := Checked.exists_eq_ok_of_any h₀
  obtain ⟨s, hl, hk⟩ := Checked.exists_eq_ok_of_any hl
  exact ⟨rfl, rfl, s₀, s, h₀, hl, of_decide_eq_true hk₀, of_decide_eq_true hk⟩

end Session

end Atelier
