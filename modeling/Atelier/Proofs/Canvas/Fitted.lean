import Atelier.Proofs.Canvas.Recentring
import Atelier.Proofs.Cycle.Edits

/-!
Canvases that fill their screen: the size is always the one that the scale leaves on the screen.
Drawing and zooming keep it so, and each of them can be taken over by any other on the same screen.
-/

namespace Atelier

namespace Canvas

structure Fitted (c : Canvas) (screen : Size) : Prop where
  sound : c.Sound
  screen_eq : c.screen = screen
  scale_eq : clampScale c.scale = c.scale
  dims_eq : dims screen c.scale = .ok c.raster.size

-- Two canvases whose pictures are at the same scale on the same screen and have the same size.
structure SameFrame (c c' : Canvas) : Prop where
  screen : c'.screen = c.screen
  scale : c'.scale = c.scale
  size : c'.raster.size = c.raster.size

variable {c c' c₀ : Canvas} {screen size : Size}

theorem Fitted.of_sameFrame (h : c.Fitted screen) (hc : c'.Sound) (hf : c.SameFrame c') :
    c'.Fitted screen where
  sound := hc
  screen_eq := hf.screen.trans h.screen_eq
  scale_eq := by rw [hf.scale, h.scale_eq]
  dims_eq := by rw [hf.scale, hf.size, h.dims_eq]

theorem sameFrame_stroke {n : Nat} (h : c.stroke = .ok (c', n)) : c.SameFrame c' := by
  obtain ⟨_, _, h⟩ := Checked.bind_eq_ok_iff.mp h
  cases h
  exact ⟨rfl, rfl, c.raster.size_paint ..⟩

theorem sameFrame_move {d : Direction} {o : MoveOutcome} (h : c.move d = .ok (c', o)) :
    c.SameFrame c' := by
  obtain _ | _ | ⟨_, _, hs⟩ := lands_of_move h
  case stays => exact ⟨rfl, rfl, rfl⟩
  case glides => exact ⟨rfl, rfl, rfl⟩
  case paints =>
    have hs := sameFrame_stroke hs
    exact ⟨hs.screen, hs.scale, hs.size⟩

theorem sameFrame_setColor (c : Canvas) (k : Color) : c.SameFrame (c.setColor k) := by
  unfold setColor
  split <;> exact ⟨rfl, rfl, rfl⟩

-- Only a zoom changes the frame.
theorem sameFrame_apply {e : Edit} (hd : e.IsDrawing) (hz : ∀ z, e ≠ .zoom z) (h : e.apply c = .ok c') :
    c.SameFrame c' := by
  cases e
  case move d =>
    obtain ⟨o, hm⟩ := Checked.fst_eq_ok_iff.mp h
    exact sameFrame_move hm
  case stroke =>
    obtain ⟨n, hs⟩ := Checked.fst_eq_ok_iff.mp h
    exact sameFrame_stroke hs
  case setColor k =>
    cases h
    exact c.sameFrame_setColor k
  case zoom z => exact absurd rfl (hz z)
  case resize => exact hd.elim
  case rescale => exact hd.elim
  case restore => exact hd.elim
  all_goals
    cases h
    exact ⟨rfl, rfl, rfl⟩

theorem frame_of_resize (h : c.resize size = .ok c') (hw : 0 < size.width) (hh : 0 < size.height) :
    c'.screen = c.screen ∧ c'.scale = c.scale ∧ c'.raster.size = size := by
  have hmw : max size.width 1 = size.width := Nat.max_eq_left hw
  have hmh : max size.height 1 = size.height := Nat.max_eq_left hh
  cases resize_eq_ok h
  case inl h =>
    obtain ⟨rfl, hw, hh⟩ := h
    refine ⟨rfl, rfl, ?_⟩
    rw [Raster.size, ← width, ← height, ← hw, ← hh, hmw, hmh]
  case inr h =>
    obtain ⟨_, _, rfl⟩ := h
    refine ⟨rfl, rfl, ?_⟩
    rw [Raster.size_centredIn, hmw, hmh]

theorem Fitted.of_resize {scale : Float} (hw : screen.IsWord) (hs : clampScale scale = scale)
    (hd : dims screen scale = .ok size)
    (h : { c with screen := screen, scale := scale }.resize size = .ok c') (hc : c'.Sound) :
    c'.Fitted screen ∧ c'.scale = scale := by
  have ⟨size', hd', ⟨hpw, _⟩, hph, _⟩ := dims_eq_ok hw scale
  rw [hs] at hd'
  cases hd.symm.trans hd'
  obtain ⟨hc', hk, hr⟩ := frame_of_resize h hpw hph
  exact ⟨⟨hc, hc', hk ▸ hs, hk ▸ hr ▸ hd⟩, hk⟩

theorem Fitted.apply (h : c.Fitted screen) (hs : screen.IsShort) {e : Edit} (hd : e.IsDrawing)
    (he : e.apply c = .ok c') : c'.Fitted screen := by
  have hb : ∀ size, e.Brings c size → size.IsShort := by
    intro size hb
    cases hb
    case zoom hz => exact isShort_of_dims (h.screen_eq ▸ hs) (clampScale_nextScale c _ ▸ hz)
    all_goals exact hd.elim
  have ⟨c₁, ha, hc⟩ := h.sound.apply hd.isGiven hb
  cases he.symm.trans ha
  by_cases hz : ∃ z, e = .zoom z
  case neg => exact h.of_sameFrame hc (sameFrame_apply hd (fun z he => hz ⟨z, he⟩) he)
  case pos =>
    obtain ⟨z, rfl⟩ := hz
    obtain ⟨b, hz⟩ := Checked.fst_eq_ok_iff.mp he
    cases zoom_eq_ok hz
    case inl he => exact he ▸ h
    case inr he =>
      obtain ⟨size, hd, hr⟩ := he
      have hscreen := h.screen_eq
      subst hscreen
      exact (of_resize h.sound.screen (c.clampScale_nextScale z) hd hr hc).left

theorem Fitted.drawn (h : c.Fitted screen) (hs : screen.IsShort) (hd : c.Drawn c') : c'.Fitted screen := by
  obtain ⟨es, hd, he⟩ := hd
  exact edited_induction (p := (·.Fitted screen)) (fun hm ha h => h.apply hs (hd _ hm) ha) he h

theorem size_of_ofSize {spray : Spray} (h : ofSize size spray = .ok c) :
    c.raster.size = ⟨max size.width 1, max size.height 1⟩ := by
  simp only [ofSize, Raster.filledChecked, Checked.bind_eq_ok_iff, Checked.pure_eq_ok_iff] at h
  obtain ⟨_, ⟨_, _, rfl⟩, _, _, _, _, rfl⟩ := h
  rfl

theorem exists_ofScreen_fitted (hs : screen.IsShort) (scale : Float) (spray : Spray) :
    ∃ c, ofScreen screen scale spray = .ok c ∧ c.Fitted screen := by
  have hw := hs.isWord
  have ⟨size, hd, ⟨hpw, _⟩, hph, _⟩ := dims_eq_ok hw scale
  have hshort : ∀ size, dims screen (clampScale scale) = .ok size → size.IsShort :=
    fun _ hd => isShort_of_dims hs hd
  have ⟨c, ho, hc⟩ := exists_ofScreen hw hshort spray
  refine ⟨c, ho, ?_⟩
  simp only [ofScreen, hd, Checked.ok_bind] at ho
  obtain ⟨c₁, hz, ho⟩ := Checked.bind_eq_ok_iff.mp ho
  cases ho
  have hz := size_of_ofSize hz
  rw [Nat.max_eq_left hpw, Nat.max_eq_left hph] at hz
  exact ⟨hc, rfl, clampScale_clampScale scale, hd.trans (congrArg _ hz.symm)⟩

/-! Screens that are come back to -/

-- The size is determined by the screen and the scale.
theorem Fitted.size_eq (h : c.Fitted screen) (h' : c'.Fitted screen) (hs : c.scale = c'.scale) :
    c.raster.size = c'.raster.size := by
  have hd := h.dims_eq
  rw [hs, h'.dims_eq] at hd
  exact (Except.ok.inj hd).symm

theorem Fitted.rescale (h : c.Fitted screen) (hs : screen.IsShort) (scale : Float) :
    ∃ c', c.rescale c.screen scale = .ok c' ∧ c'.Fitted screen ∧ c'.scale = clampScale scale := by
  have hscreen := h.screen_eq
  subst hscreen
  have hshort : ∀ size, dims c.screen (clampScale scale) = .ok size → size.IsShort :=
    fun _ hd => isShort_of_dims hs hd
  have ⟨c', hr, hc⟩ := h.sound.rescale h.sound.screen hshort
  refine ⟨c', hr, ?_⟩
  obtain ⟨size, hd, hr⟩ := Checked.bind_eq_ok_iff.mp hr
  exact of_resize h.sound.screen (clampScale_clampScale scale) hd hr hc

-- On a canvas of its own size, a picture is taken over as it is.
theorem restore_of_size_eq (h : c.Sound) (hs : c₀.raster.size = c.raster.size) :
    c₀.restore (some c.raster) c.cursor c.colors.items =
      .ok { c₀ with raster := c.raster, cursor := c.cursor, colors := c.colors } := by
  have hf := h.isWhole.isFeasible
  have hw : c₀.width = c.raster.width := congrArg Size.width hs
  have hh : c₀.height = c.raster.height := congrArg Size.height hs
  have hl : ⟨lastOf colorLimit c.colors.items, colorLimit⟩ = c.colors := by
    rw [lastOf_of_length_le h.colors_le, ← h.colors_limit]
  rw [restore_of_isOn hf (hs ▸ hf) h.cursor, restored, hw, hh, hs, hl, Raster.offsetTo_self,
    Raster.centredIn_self h.raster.wellFormed hf, shifted_zero h.cursor]

-- A canvas that fills a screen comes back on any canvas that fills the same screen.
theorem Fitted.restore (h : c.Fitted screen) (h₀ : c₀.Fitted screen) (hs : screen.IsShort) :
    ∃ spray, (do
      let c₁ ← c₀.rescale c₀.screen c.scale
      c₁.restore (some c.raster) c.cursor c.colors.items) = .ok { c with spray := spray } := by
  have ⟨c₁, hr, hf, hk⟩ := h₀.rescale hs c.scale
  rw [h.scale_eq] at hk
  refine ⟨c₁.spray, ?_⟩
  rw [hr, Checked.ok_bind, restore_of_size_eq h.sound (hf.size_eq h hk), hk,
    hf.screen_eq.trans h.screen_eq.symm]

end Canvas

end Atelier
