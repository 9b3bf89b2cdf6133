import Atelier.Proofs.Canvas.Edits

/-!
The values of the cells of a canvas. Nothing but a stored picture can bring a value that is not in the palette.
-/

namespace Atelier

-- The value is that of a colour.
def Rgb.InPalette (v : Rgb) : Prop :=
  ∃ k : Color, v = k.rgb

namespace Raster

variable {r : Raster} {v k : Rgb} {x y : Int}

theorem eq_or_mem_of_mem_set (h : v ∈ (r.set x y k).cells) : v = k ∨ v ∈ r.cells := by
  unfold set at h
  split at h
  case h_1 => exact (Array.mem_or_eq_of_mem_setIfInBounds h).symm
  case h_2 => exact .inr h

theorem eq_or_mem_of_mem_paint {os : List Offset} (h : v ∈ (r.paint x y k os).cells) : v = k ∨ v ∈ r.cells := by
  unfold paint at h
  induction os generalizing r
  case nil => exact .inr h
  case cons o os ih => exact (ih h).elim .inl eq_or_mem_of_mem_set

end Raster

namespace Canvas

-- A stored picture has a cell with the value.
inductive Edit.Stores (v : Rgb) : Edit → Prop
  | restore {r k colors} : v ∈ r.cells → Stores v (.restore (some r) k colors)

variable {c c' : Canvas} {e : Edit} {es : List Edit} {v : Rgb}

theorem inPalette_or_mem_of_stroke {n : Nat} (h : c.stroke = .ok (c', n)) (hv : v ∈ c'.raster.cells) :
    v.InPalette ∨ v ∈ c.raster.cells := by
  obtain ⟨_, _, h⟩ := Checked.bind_eq_ok_iff.mp h
  cases h
  exact (Raster.eq_or_mem_of_mem_paint hv).imp_left fun h => ⟨_, h⟩

theorem inPalette_or_mem_of_move {d : Direction} {o : MoveOutcome} (h : c.move d = .ok (c', o))
    (hv : v ∈ c'.raster.cells) : v.InPalette ∨ v ∈ c.raster.cells := by
  obtain _ | _ | ⟨_, _, hs⟩ := lands_of_move h
  case stays => exact .inr hv
  case glides => exact .inr hv
  case paints =>
    have hs := inPalette_or_mem_of_stroke hs hv
    exact hs

theorem inPalette_or_mem_of_resize {size : Size} (h : c.resize size = .ok c') (hv : v ∈ c'.raster.cells) :
    v.InPalette ∨ v ∈ c.raster.cells := by
  obtain ⟨rfl, _⟩ | ⟨_, _, rfl⟩ := resize_eq_ok h
  case inl => exact .inr hv
  case inr => exact (Raster.eq_black_or_mem_of_mem_centredIn hv).imp_left fun h => ⟨.black, h⟩

theorem inPalette_or_mem_of_zoom {z : Zoom} {b : Bool} (h : c.zoom z = .ok (c', b)) (hv : v ∈ c'.raster.cells) :
    v.InPalette ∨ v ∈ c.raster.cells := by
  obtain rfl | ⟨_, _, hr⟩ := zoom_eq_ok h
  case inl => exact .inr hv
  case inr =>
    have hr := inPalette_or_mem_of_resize hr hv
    exact hr

theorem inPalette_or_mem_of_restore {stored : Option Raster} {k : Cursor} {colors : List Color}
    (h : c.restore stored k colors = .ok c') (hv : v ∈ c'.raster.cells) :
    v.InPalette ∨ v ∈ c.raster.cells ∨ (Edit.restore stored k colors).Stores v := by
  cases stored
  case none =>
    cases h
    exact .inr (.inl hv)
  case some r =>
    obtain ⟨⟨r', o⟩, hm, h⟩ := Checked.bind_eq_ok_iff.mp h
    obtain ⟨_, _, h⟩ := Checked.bind_eq_ok_iff.mp h
    obtain ⟨rfl, _⟩ := Raster.migrate_eq_ok hm
    cases h
    exact (Raster.eq_black_or_mem_of_mem_centredIn hv).imp (fun h => ⟨.black, h⟩) fun h => .inr (.restore h)

theorem inPalette_or_mem_of_apply (h : e.apply c = .ok c') (hv : v ∈ c'.raster.cells) :
    v.InPalette ∨ v ∈ c.raster.cells ∨ e.Stores v := by
  cases e
  case move d =>
    obtain ⟨o, hm⟩ := Checked.fst_eq_ok_iff.mp h
    exact (inPalette_or_mem_of_move hm hv).imp_right .inl
  case stroke =>
    obtain ⟨n, hs⟩ := Checked.fst_eq_ok_iff.mp h
    exact (inPalette_or_mem_of_stroke hs hv).imp_right .inl
  case zoom z =>
    obtain ⟨b, hz⟩ := Checked.fst_eq_ok_iff.mp h
    exact (inPalette_or_mem_of_zoom hz hv).imp_right .inl
  case resize size => exact (inPalette_or_mem_of_resize h hv).imp_right .inl
  case rescale screen scale =>
    obtain ⟨_, _, hr⟩ := Checked.bind_eq_ok_iff.mp h
    have hr := inPalette_or_mem_of_resize hr hv
    exact hr.imp_right .inl
  case restore stored k colors => exact inPalette_or_mem_of_restore h hv
  case clear =>
    cases h
    exact .inl ⟨.black, Raster.eq_of_mem_fill hv⟩
  case fill =>
    cases h
    exact .inl ⟨_, Raster.eq_of_mem_fill hv⟩
  case setColor k =>
    cases h
    unfold setColor at hv
    split at hv <;> exact .inr (.inl hv)
  all_goals
    cases h
    exact .inr (.inl hv)

-- A blank canvas has a cell of the palette everywhere, and keeps to the palette if no picture is restored.
theorem inPalette_of_edited (hb : c.raster.IsBlank) (hr : ∀ r k colors, .restore (some r) k colors ∉ es)
    (h : c.edited es = .ok c') : ∀ v ∈ c'.raster.cells, v.InPalette := by
  refine edited_induction (p := fun c => ∀ v ∈ c.raster.cells, v.InPalette) (fun hm he hp v hv => ?step) h
    fun v hv => ⟨.black, hb v hv⟩
  case step =>
    obtain hc | hc | hs := inPalette_or_mem_of_apply he hv
    case inl => exact hc
    case inr.inl => exact hp v hc
    case inr.inr =>
      cases hs
      exact absurd hm (hr _ _ _)

end Canvas

end Atelier
