import Atelier.Canvas
import Atelier.Proofs.Checked

/-!
What a change of size or scale can do to a canvas, and that it leaves a blank picture blank.
-/

namespace Atelier

namespace Raster

theorem migrate_eq_ok {r r' : Raster} {width height : Nat} {o : Offset}
    (h : r.migrate width height = .ok (r', o)) :
    r' = r.centredIn width height ∧ o = r.offsetTo width height := by
  simp only [migrate, Checked.bind_eq_ok_iff, Checked.pure_eq_ok_iff, Prod.mk.injEq] at h
  obtain ⟨_, _, _, _, _, _, _, _, _, _, hr, ho⟩ := h
  exact ⟨hr.symm, ho.symm⟩

def IsBlank (r : Raster) : Prop :=
  ∀ c ∈ r.cells, c = Rgb.black

instance (r : Raster) : Decidable r.IsBlank := by
  unfold IsBlank
  infer_instance

theorem eq_of_mem_fill {r : Raster} {v k : Rgb} (h : v ∈ (r.fill k).cells) : v = k := by
  have h : v ∈ Array.replicate (r.width * r.height) k := h
  exact (Array.mem_replicate.mp h).right

theorem isBlank_fill_black (r : Raster) : (r.fill Rgb.black).IsBlank :=
  fun _ => eq_of_mem_fill

theorem mem_of_get? {r : Raster} {x y : Int} {v : Rgb} (h : r.get? x y = some v) : v ∈ r.cells := by
  unfold get? at h
  split at h
  case h_1 => exact Array.mem_of_getElem? h
  case h_2 => cases h

theorem exists_eq_of_mem_generate {width height : Nat} {f : Nat → Nat → Rgb} {v : Rgb}
    (h : v ∈ (generate width height f).cells) : ∃ x y, f x y = v := by
  have ⟨_, hi⟩ := Array.mem_ofFn.mp h
  exact ⟨_, _, hi⟩

-- Where there was no cell, there is a black one.
theorem eq_black_or_mem_of_mem_centredIn {r : Raster} {width height : Nat} {v : Rgb}
    (h : v ∈ (r.centredIn width height).cells) : v = Rgb.black ∨ v ∈ r.cells := by
  unfold centredIn at h
  generalize r.offsetTo width height = o at h
  obtain ⟨x, y, rfl⟩ := exists_eq_of_mem_generate h
  cases hg : r.get? (x - o.dx) (y - o.dy)
  case none => exact .inl rfl
  case some v => exact .inr (mem_of_get? hg)

theorem isBlank_centredIn {r : Raster} (h : r.IsBlank) (width height : Nat) :
    (r.centredIn width height).IsBlank :=
  fun v hv => (eq_black_or_mem_of_mem_centredIn hv).elim id (h v)

end Raster

namespace Canvas

variable {c c' : Canvas}

theorem resize_eq_ok {size : Size} (h : c.resize size = .ok c') :
    (c' = c ∧ max size.width 1 = c.width ∧ max size.height 1 = c.height) ∨
    ∃ cursor, shiftCursor c.cursor (c.raster.offsetTo (max size.width 1) (max size.height 1))
        (max size.width 1) (max size.height 1) = .ok cursor ∧
      c' = { c with raster := c.raster.centredIn (max size.width 1) (max size.height 1), cursor := cursor } := by
  unfold resize at h
  simp only [] at h
  split at h
  case isTrue hs =>
    have h := Checked.pure_eq_ok_iff.mp h
    exact .inl ⟨h.symm, hs⟩
  case isFalse =>
    obtain ⟨⟨r, o⟩, hr, h⟩ := Checked.bind_eq_ok_iff.mp h
    obtain ⟨cursor, hc, h⟩ := Checked.bind_eq_ok_iff.mp h
    obtain ⟨hr, ho⟩ := Raster.migrate_eq_ok hr
    subst hr ho
    exact .inr ⟨cursor, hc, (Checked.pure_eq_ok_iff.mp h).symm⟩

-- The scale after one step.
def nextScale (c : Canvas) : Zoom → Float
  | .smaller => clampScale (c.scale * zoomFactor)
  | .larger  => clampScale (c.scale / zoomFactor)

def IsAtEnd (c : Canvas) (z : Zoom) : Prop :=
  (c.nextScale z - c.scale).abs < 2.220446049250313e-16

instance (c : Canvas) (z : Zoom) : Decidable (c.IsAtEnd z) :=
  inferInstanceAs (Decidable (_ < _))

theorem zoom_eq (c : Canvas) (z : Zoom) :
    c.zoom z =
      if c.IsAtEnd z then
        return (c, false)
      else do
        let size ← dims c.screen (c.nextScale z)
        let c ← { c with scale := c.nextScale z }.resize size
        return (c, true) := by
  cases z <;> rfl

theorem zoom_eq_ok {z : Zoom} {b : Bool} (h : c.zoom z = .ok (c', b)) :
    c' = c ∨ ∃ size, dims c.screen (c.nextScale z) = .ok size ∧
      { c with scale := c.nextScale z }.resize size = .ok c' := by
  rw [zoom_eq] at h
  split at h
  case isTrue =>
    have h := Checked.pure_eq_ok_iff.mp h
    exact .inl (congrArg Prod.fst h).symm
  case isFalse =>
    obtain ⟨size, hd, h⟩ := Checked.bind_eq_ok_iff.mp h
    obtain ⟨c₁, hr, h⟩ := Checked.bind_eq_ok_iff.mp h
    have h : c₁ = c' := congrArg Prod.fst (Checked.pure_eq_ok_iff.mp h)
    exact .inr ⟨size, hd, h ▸ hr⟩

theorem isBlank_resize {size : Size} (h : c.resize size = .ok c') (hb : c.raster.IsBlank) :
    c'.raster.IsBlank := by
  cases resize_eq_ok h
  case inl h => exact h.left ▸ hb
  case inr h =>
    have ⟨_, _, h⟩ := h
    exact h ▸ Raster.isBlank_centredIn hb _ _

theorem isBlank_zoom {z : Zoom} {b : Bool} (h : c.zoom z = .ok (c', b)) (hb : c.raster.IsBlank) :
    c'.raster.IsBlank := by
  cases zoom_eq_ok h
  case inl h => exact h ▸ hb
  case inr h =>
    have ⟨_, _, h⟩ := h
    exact isBlank_resize h hb

end Canvas

end Atelier
